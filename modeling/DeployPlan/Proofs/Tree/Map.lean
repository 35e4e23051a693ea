import DeployPlan.Tree

/-!
# Relabelled trees

Relabelling keeps the shape of a tree: subtrees in preorder, labels and children of the result are
those of the tree, relabelled. An update that leaves the new labels as they are is not seen.
-/
namespace DeployPlan.Tree

variable {α β : Type}

mutual

def map (f : α → β) : Tree α → Tree β
  | node a ts => node (f a) (mapAll f ts)

def mapAll (f : α → β) : List (Tree α) → List (Tree β)
  | [] => []
  | t :: ts => map f t :: mapAll f ts

end

@[simp] theorem mapAll_eq_map (f : α → β) (ts : List (Tree α)) : mapAll f ts = ts.map (map f) := by
  induction ts with
  | nil => simp [mapAll]
  | cons t ts ih => simp [mapAll, ih]

@[simp] theorem label_map (f : α → β) (t : Tree α) : (map f t).label = f t.label := by
  cases t; simp [map, label]

@[simp] theorem children_map (f : α → β) (t : Tree α) :
    (map f t).children = t.children.map (map f) := by
  cases t; simp [map, children]

mutual

theorem subtrees_map (f : α → β) (t : Tree α) : (map f t).subtrees = t.subtrees.map (map f) := by
  match t with
  | node a ts =>
    have h := subtreesOf_mapAll f ts
    simp only [map, subtrees, List.map_cons, h]

theorem subtreesOf_mapAll (f : α → β) (ts : List (Tree α)) :
    subtreesOf (mapAll f ts) = (subtreesOf ts).map (map f) := by
  match ts with
  | [] => simp [mapAll, subtreesOf]
  | t :: ts =>
    have h := subtrees_map f t
    have hs := subtreesOf_mapAll f ts
    simp only [mapAll, subtreesOf, List.map_append, h, hs]

end

theorem subtreesOf_map (f : α → β) (ts : List (Tree α)) :
    subtreesOf (ts.map (map f)) = (subtreesOf ts).map (map f) := by
  rw [← mapAll_eq_map, subtreesOf_mapAll]

theorem labelsOf_map (f : α → β) (ts : List (Tree α)) :
    labelsOf (ts.map (map f)) = (labelsOf ts).map f := by
  simp [labelsOf, subtreesOf_map, Function.comp_def]

theorem subtreesOf_eq_flatMap (ts : List (Tree α)) : subtreesOf ts = ts.flatMap subtrees := by
  induction ts with
  | nil => simp [subtreesOf]
  | cons t ts ih => simp [subtreesOf, ih]

theorem subtrees_node (a : α) (ts : List (Tree α)) :
    (node a ts).subtrees = node a ts :: ts.flatMap subtrees := by
  simp [subtrees, subtreesOf_eq_flatMap]

def labels (t : Tree α) : List α := t.subtrees.map label

theorem labelsOf_eq_flatMap (ts : List (Tree α)) : labelsOf ts = ts.flatMap labels := by
  simp only [labelsOf, subtreesOf_eq_flatMap, List.map_flatMap]
  rfl

theorem labelsOf_cons (t : Tree α) (ts : List (Tree α)) :
    labelsOf (t :: ts) = t.labels ++ labelsOf ts := by
  simp only [labelsOf_eq_flatMap, List.flatMap_cons]

theorem labelsOf_append (ts us : List (Tree α)) :
    labelsOf (ts ++ us) = labelsOf ts ++ labelsOf us := by
  simp only [labelsOf_eq_flatMap, List.flatMap_append]

@[simp] theorem labels_node (a : α) (ts : List (Tree α)) :
    (node a ts).labels = a :: ts.flatMap labels := by
  rw [labels, subtrees, List.map_cons, ← labelsOf_eq_flatMap]
  rfl

theorem labels_eq_cons (t : Tree α) : t.labels = t.label :: labelsOf t.children := by
  cases t with
  | node a ts => rw [labels_node, ← labelsOf_eq_flatMap, label, children]

theorem labels_map (f : α → β) (t : Tree α) : (map f t).labels = t.labels.map f := by
  simp [labels, subtrees_map, Function.comp_def]

variable {f : α → β} {g : Tree α → Tree α} {p : α → Bool}

mutual

/-- An update that keeps new labels is not seen in a relabelled tree. -/
theorem map_of_update? (hg : ∀ t, map f (g t) = map f t) {t t' : Tree α}
    (h : update? p g t = some t') : map f t' = map f t := by
  match t with
  | node a ts =>
    rw [update?] at h
    split at h
    · cases h; exact hg _
    · obtain ⟨ts', hts, rfl⟩ := Option.map_eq_some_iff.1 h
      simp only [map, mapAll_of_updateIn? hg hts]

theorem mapAll_of_updateIn? (hg : ∀ t, map f (g t) = map f t) {ts ts' : List (Tree α)}
    (h : updateIn? p g ts = some ts') : mapAll f ts' = mapAll f ts := by
  match ts with
  | [] => simp [updateIn?] at h
  | t :: ts =>
    rw [updateIn?] at h
    split at h
    · next t' ht => cases h; simp only [mapAll, map_of_update? hg ht]
    · obtain ⟨ts', hts, rfl⟩ := Option.map_eq_some_iff.1 h
      simp only [mapAll, mapAll_of_updateIn? hg hts]

end

section

variable {e : α → α} {u : Tree α → Tree α}

mutual

/-- A search that new labels do not mislead finds the relabelled tree. -/
theorem find?_map (hp : ∀ a, p (e a) = p a) (t : Tree α) :
    find? p (map e t) = (find? p t).map (map e) := by
  match t with
  | node a ts =>
    have hts := findIn?_mapAll hp ts
    simp only [map, find?, hp, hts]
    split <;> simp [map]

theorem findIn?_mapAll (hp : ∀ a, p (e a) = p a) (ts : List (Tree α)) :
    findIn? p (mapAll e ts) = (findIn? p ts).map (map e) := by
  match ts with
  | [] => rfl
  | t :: ts =>
    have ht := find?_map hp t
    have hts := findIn?_mapAll hp ts
    simp only [mapAll, findIn?, ht, hts]
    cases find? p t <;> rfl

end

mutual

/-- An update that commutes with relabelling, and is made where new labels do not mislead. -/
theorem update?_map (hp : ∀ a, p (e a) = p a) (hu : ∀ t, u (map e t) = map e (u t)) (t : Tree α) :
    update? p u (map e t) = (update? p u t).map (map e) := by
  match t with
  | node a ts =>
    have hts := updateIn?_mapAll hp hu ts
    have hnode := hu (node a ts)
    simp only [map] at hnode
    simp only [map, update?, hp, hts, hnode]
    split
    · rfl
    · cases updateIn? p u ts <;> simp [map]

theorem updateIn?_mapAll (hp : ∀ a, p (e a) = p a) (hu : ∀ t, u (map e t) = map e (u t))
    (ts : List (Tree α)) :
    updateIn? p u (mapAll e ts) = (updateIn? p u ts).map (List.map (map e)) := by
  match ts with
  | [] => rfl
  | t :: ts =>
    have ht := update?_map hp hu t
    have hts := updateIn?_mapAll hp hu ts
    simp only [mapAll, updateIn?, ht, hts]
    cases update? p u t with
    | some t' => simp
    | none => cases updateIn? p u ts <;> simp

end

end

/-- Changing a label in a way that `f` does not see is not seen in the whole tree. -/
theorem map_mapLabel {e : α → α} (he : ∀ a, f (e a) = f a) (t : Tree α) :
    map f (mapLabel e t) = map f t := by
  cases t; simp [mapLabel, map, he]

mutual

/-- A search gives the first subtree in preorder whose label passes. -/
theorem find?_eq_find?_subtrees (p : α → Bool) (t : Tree α) :
    find? p t = t.subtrees.find? (p ·.label) := by
  match t with
  | node a ts =>
    have hbelow := findIn?_eq_find?_subtreesOf p ts
    rw [find?, subtrees, List.find?_cons, label, hbelow]
    cases p a <;> rfl

theorem findIn?_eq_find?_subtreesOf (p : α → Bool) (ts : List (Tree α)) :
    findIn? p ts = (subtreesOf ts).find? (p ·.label) := by
  match ts with
  | [] => rfl
  | t :: ts =>
    have hfirst := find?_eq_find?_subtrees p t
    have hrest := findIn?_eq_find?_subtreesOf p ts
    rw [findIn?, subtreesOf, List.find?_append, ← hfirst, ← hrest]
    cases find? p t <;> rfl

end

/-- A search finds nothing exactly when no label passes. -/
theorem findIn?_eq_none_iff {p : α → Bool} {ts : List (Tree α)} :
    findIn? p ts = none ↔ ∀ a ∈ labelsOf ts, p a = false := by
  rw [findIn?_eq_find?_subtreesOf, List.find?_eq_none, labelsOf, List.forall_mem_map]
  simp only [Bool.not_eq_true]

end DeployPlan.Tree
