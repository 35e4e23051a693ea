import DeployPlan.Proofs.Tree.Map

/-!
# Where a subtree stands

A context is a list of trees with one place left open. What is filled into the place stands between
the labels before it and those after it in preorder, and all of these stay as they are. The first
subtree whose label passes a test stands in a context without such a label before its place: there a
search finds it, and an update fills what it makes of it into the same place.
-/
namespace DeployPlan.Tree

variable {α β : Type}

/-- Trees with a place left open for one more. -/
inductive Context (α : Type) where
  /-- The place is among other trees. -/
  | among (left right : List (Tree α))
  /-- The place is somewhere under a label. -/
  | under (left : List (Tree α)) (label : α) (inner : Context α) (right : List (Tree α))

namespace Context

/-- The trees with `t` in the open place. -/
def fill : Context α → Tree α → List (Tree α)
  | among left right, t => left ++ t :: right
  | under left a inner right, t => left ++ node a (inner.fill t) :: right

/-- The labels before the open place in preorder: those on the left of it and those above it. -/
def before : Context α → List α
  | among left _ => labelsOf left
  | under left a inner _ => labelsOf left ++ a :: inner.before

/-- The labels after the open place in preorder. -/
def after : Context α → List α
  | among _ right => labelsOf right
  | under _ _ inner right => inner.after ++ labelsOf right

/-- The context with one more tree in front. -/
def prepend (t : Tree α) : Context α → Context α
  | among left right => among (t :: left) right
  | under left a inner right => under (t :: left) a inner right

end Context

/-- The shape of a tree is that of its children under a node. -/
theorem map_const_congr {t t' : Tree α} (h : t'.children = t.children) (b : β) :
    map (fun _ => b) t' = map (fun _ => b) t := by
  obtain ⟨a, ts⟩ := t
  obtain ⟨a', ts'⟩ := t'
  obtain rfl : ts' = ts := h
  simp only [map]

namespace Context

theorem fill_prepend (c : Context α) (t u : Tree α) : (c.prepend t).fill u = t :: c.fill u := by
  cases c with
  | among left right => rfl
  | under left a inner right => rfl

theorem before_prepend (c : Context α) (t : Tree α) :
    (c.prepend t).before = t.labels ++ c.before := by
  cases c with
  | among left right => rw [prepend, before, before, labelsOf_cons]
  | under left a inner right =>
    rw [prepend, before, before, labelsOf_cons, List.append_assoc]

/-- Filling the place puts the labels of a tree between those before and after the place. -/
theorem labelsOf_fill (c : Context α) (t : Tree α) :
    labelsOf (c.fill t) = c.before ++ t.labels ++ c.after := by
  induction c with
  | among left right =>
    simp only [fill, before, after, labelsOf_append, labelsOf_cons, List.append_assoc]
  | under left a inner right ih =>
    simp only [fill, before, after, labelsOf_append, labelsOf_cons, labels_eq_cons, label, children,
      ih, List.cons_append, List.append_assoc]

/-- What cannot be told of two trees cannot be told of where they are filled in. -/
theorem map_fill_congr {f : α → β} {t t' : Tree α} (h : map f t = map f t') (c : Context α) :
    (c.fill t).map (map f) = (c.fill t').map (map f) := by
  induction c with
  | among left right => simp only [fill, List.map_append, List.map_cons, h]
  | under left a inner right ih =>
    simp only [fill, List.map_append, List.map_cons, map, mapAll_eq_map, ih]

end Context

section

variable {p : α → Bool} {f : Tree α → Tree α} {c : Context α} {ts : List (Tree α)} {t : Tree α}

mutual

/-- An update finds nothing exactly when a search finds nothing. -/
theorem update?_eq_none_iff (p : α → Bool) (f : Tree α → Tree α) (t : Tree α) :
    update? p f t = none ↔ find? p t = none := by
  match t with
  | node a ts =>
    have hbelow := updateIn?_eq_none_iff p f ts
    rw [update?, find?]
    split
    · simp
    · rw [Option.map_eq_none_iff, hbelow]

theorem updateIn?_eq_none_iff (p : α → Bool) (f : Tree α → Tree α) (ts : List (Tree α)) :
    updateIn? p f ts = none ↔ findIn? p ts = none := by
  match ts with
  | [] => simp [updateIn?, findIn?]
  | t :: ts =>
    have hfirst := update?_eq_none_iff p f t
    have hrest := updateIn?_eq_none_iff p f ts
    rw [updateIn?, findIn?]
    cases hu : update? p f t with
    | none =>
      rw [hfirst.1 hu]
      exact Option.map_eq_none_iff.trans hrest
    | some t' =>
      obtain ⟨s, hs⟩ : ∃ s, find? p t = some s := by
        rw [← Option.ne_none_iff_exists', Ne, ← hfirst, hu]
        exact Option.some_ne_none t'
      simp [hs]

end

theorem findIn?_append (h : ∀ a ∈ labelsOf ts, p a = false) (us : List (Tree α)) :
    findIn? p (ts ++ us) = findIn? p us := by
  have hnone := findIn?_eq_none_iff.2 h
  rw [findIn?_eq_find?_subtreesOf] at hnone ⊢
  rw [subtreesOf_eq_flatMap, List.flatMap_append, ← subtreesOf_eq_flatMap, ← subtreesOf_eq_flatMap,
    List.find?_append, hnone, Option.none_or, findIn?_eq_find?_subtreesOf]

theorem updateIn?_append (h : ∀ a ∈ labelsOf ts, p a = false) (us : List (Tree α)) :
    updateIn? p f (ts ++ us) = (updateIn? p f us).map (ts ++ ·) := by
  induction ts with
  | nil => simp
  | cons t ts ih =>
    rw [labelsOf_cons, List.forall_mem_append] at h
    have hfirst : update? p f t = none := by
      rw [update?_eq_none_iff, find?_eq_find?_subtrees, List.find?_eq_none]
      simpa [labels] using h.1
    rw [List.cons_append, updateIn?, hfirst, ih h.2, Option.map_map]
    rfl

/-- The place of `c` holds `t`, and `t` is the first subtree in preorder whose label passes. -/
structure FirstAt (p : α → Bool) (ts : List (Tree α)) (c : Context α) (t : Tree α) : Prop where
  filled : c.fill t = ts
  passes : p t.label = true
  first : ∀ a ∈ c.before, p a = false

/-- The first subtree that passes is the one that a search finds. -/
theorem FirstAt.findIn?_eq (h : FirstAt p ts c t) : findIn? p ts = some t := by
  obtain ⟨rfl, hpasses, hfirst⟩ := h
  induction c with
  | among left right =>
    obtain ⟨a, us⟩ := t
    have ha : p a = true := hpasses
    rw [Context.fill, findIn?_append hfirst, findIn?, find?, if_pos ha]
  | under left a inner right ih =>
    rw [Context.before, List.forall_mem_append, List.forall_mem_cons] at hfirst
    obtain ⟨hleft, ha, hinner⟩ := hfirst
    rw [Context.fill, findIn?_append hleft, findIn?, find?, ha, ih hinner]
    rfl

/-- An update changes the first subtree that passes, and keeps all that is around it. -/
theorem FirstAt.updateIn?_eq (h : FirstAt p ts c t) (f : Tree α → Tree α) :
    updateIn? p f ts = some (c.fill (f t)) := by
  obtain ⟨rfl, hpasses, hfirst⟩ := h
  induction c with
  | among left right =>
    obtain ⟨a, us⟩ := t
    have ha : p a = true := hpasses
    rw [Context.fill, updateIn?_append hfirst, updateIn?, update?, if_pos ha]
    rfl
  | under left a inner right ih =>
    rw [Context.before, List.forall_mem_append, List.forall_mem_cons] at hfirst
    obtain ⟨hleft, ha, hinner⟩ := hfirst
    rw [Context.fill, updateIn?_append hleft, updateIn?, update?, ha, ih hinner]
    rfl

/-- Where a label passes, some subtree is the first whose label does. -/
theorem exists_firstAt (ts : List (Tree α)) (h : ∃ a ∈ labelsOf ts, p a = true) :
    ∃ c t, FirstAt p ts c t := by
  match ts with
  | [] =>
    obtain ⟨a, ha, -⟩ := h
    cases ha
  | node a us :: ts =>
    by_cases ha : p a = true
    · exact ⟨.among [] ts, node a us, rfl, ha, fun b hb => by cases hb⟩
    rw [Bool.not_eq_true] at ha
    by_cases hus : ∃ b ∈ labelsOf us, p b = true
    · obtain ⟨c, t, hc⟩ := exists_firstAt us hus
      refine ⟨.under [] a c ts, t, ?_, hc.passes, List.forall_mem_cons.2 ⟨ha, hc.first⟩⟩
      rw [Context.fill, hc.filled, List.nil_append]
    · have hskip : ∀ b ∈ (node a us).labels, p b = false := by
        rw [labels_eq_cons, List.forall_mem_cons]
        exact ⟨ha, fun b hb => Bool.eq_false_iff.2 fun hpasses => hus ⟨b, hb, hpasses⟩⟩
      have hts : ∃ b ∈ labelsOf ts, p b = true := by
        obtain ⟨b, hb, hpasses⟩ := h
        rw [labelsOf_cons, List.mem_append] at hb
        refine ⟨b, hb.resolve_left fun hmem => ?_, hpasses⟩
        rw [hskip b hmem] at hpasses
        cases hpasses
      obtain ⟨c, t, hc⟩ := exists_firstAt ts hts
      refine ⟨c.prepend (node a us), t, ?_, hc.passes, ?_⟩
      · rw [Context.fill_prepend, hc.filled]
      · rw [Context.before_prepend, List.forall_mem_append]
        exact ⟨hskip, hc.first⟩

/-- A search finds the first subtree that passes, wherever it stands. -/
theorem findIn?_eq_some_iff : findIn? p ts = some t ↔ ∃ c, FirstAt p ts c t := by
  refine ⟨fun h => ?_, fun ⟨c, hc⟩ => hc.findIn?_eq⟩
  have hfind := h
  rw [findIn?_eq_find?_subtreesOf] at hfind
  have hlabel : t.label ∈ labelsOf ts := List.mem_map_of_mem (List.mem_of_find?_eq_some hfind)
  have hpasses : p t.label = true := by simpa using List.find?_some hfind
  obtain ⟨c, t', hc⟩ := exists_firstAt ts ⟨t.label, hlabel, hpasses⟩
  obtain rfl : t' = t := Option.some.inj (hc.findIn?_eq.symm.trans h)
  exact ⟨c, hc⟩

end

end DeployPlan.Tree
