import DeployPlan.Proofs.Tree.Map
import Mathlib.Data.List.Nodup

/-!
# Trees without what was visited before

A traversal in preorder that remembers the labels it has met leaves out each subtree whose label is
among them. What is left has every label once. Nothing is left out of trees with distinct labels.
-/
namespace DeployPlan.Tree

variable {α : Type} [DecidableEq α]

mutual

/-- A tree without the subtrees below it whose labels were met before, and all labels met then. -/
def unvisited : Tree α → List α → Tree α × List α
  | node a ts, visited =>
    let (below, visited) := unvisitedOf ts (a :: visited)
    (node a below, visited)

def unvisitedOf : List (Tree α) → List α → List (Tree α) × List α
  | [], visited => ([], visited)
  | t :: ts, visited =>
    if t.label ∈ visited then unvisitedOf ts visited
    else
      let (first, visited) := unvisited t visited
      let (rest, visited) := unvisitedOf ts visited
      (first :: rest, visited)

end

variable {a : α} {t : Tree α} {ts : List (Tree α)} {visited : List α}

theorem unvisited_node (a : α) (ts : List (Tree α)) (visited : List α) :
    (node a ts).unvisited visited =
      (node a (unvisitedOf ts (a :: visited)).1, (unvisitedOf ts (a :: visited)).2) := by
  rw [unvisited]

theorem unvisitedOf_of_mem (h : t.label ∈ visited) :
    unvisitedOf (t :: ts) visited = unvisitedOf ts visited := by
  rw [unvisitedOf, if_pos h]

theorem unvisitedOf_of_not_mem (h : t.label ∉ visited) :
    unvisitedOf (t :: ts) visited =
      ((t.unvisited visited).1 :: (unvisitedOf ts (t.unvisited visited).2).1,
        (unvisitedOf ts (t.unvisited visited).2).2) := by
  rw [unvisitedOf, if_neg h]

@[simp] theorem label_unvisited (t : Tree α) (visited : List α) :
    (t.unvisited visited).1.label = t.label := by
  cases t with
  | node a ts => rw [unvisited_node, label, label]

mutual

/-- The labels met are those before and those of what is left. -/
theorem mem_unvisited (t : Tree α) (visited : List α) :
    a ∈ (t.unvisited visited).2 ↔ a ∈ visited ∨ a ∈ (t.unvisited visited).1.labels := by
  match t with
  | node b ts =>
    rw [unvisited_node, mem_unvisitedOf ts (b :: visited), labels_node, ← labelsOf_eq_flatMap,
      List.mem_cons, List.mem_cons]
    tauto

theorem mem_unvisitedOf (ts : List (Tree α)) (visited : List α) :
    a ∈ (unvisitedOf ts visited).2 ↔ a ∈ visited ∨ a ∈ labelsOf (unvisitedOf ts visited).1 := by
  match ts with
  | [] => simp [unvisitedOf, labelsOf, subtreesOf]
  | t :: ts =>
    by_cases h : t.label ∈ visited
    · rw [unvisitedOf_of_mem h]
      exact mem_unvisitedOf ts visited
    · rw [unvisitedOf_of_not_mem h, mem_unvisitedOf ts, mem_unvisited t visited, labelsOf_cons,
        List.mem_append, or_assoc]

end

/-- What is left of trees are trees with their labels. -/
theorem sublist_unvisitedOf (ts : List (Tree α)) (visited : List α) :
    ((unvisitedOf ts visited).1.map label).Sublist (ts.map label) := by
  induction ts generalizing visited with
  | nil => exact .slnil
  | cons t ts ih =>
    by_cases h : t.label ∈ visited
    · rw [unvisitedOf_of_mem h]
      exact (ih visited).cons t.label
    · rw [unvisitedOf_of_not_mem h, List.map_cons, label_unvisited]
      exact (ih _).cons_cons t.label

mutual

/-- A node of what is left has the label of a node of the tree, and is over some of the nodes that
are below that one. -/
theorem exists_subtree_of_unvisited {s : Tree α} (t : Tree α) (visited : List α)
    (h : s ∈ (t.unvisited visited).1.subtrees) : ∃ s' ∈ t.subtrees, s'.label = s.label ∧
      (s.children.map label).Sublist (s'.children.map label) := by
  match t with
  | node b ts =>
    rw [unvisited_node, subtrees, List.mem_cons] at h
    rcases h with rfl | h
    · refine ⟨node b ts, ?_, rfl, sublist_unvisitedOf ts (b :: visited)⟩
      rw [subtrees]
      exact List.mem_cons_self
    · obtain ⟨s', hs', hlabel⟩ := exists_subtree_of_unvisitedOf ts (b :: visited) h
      rw [subtrees]
      exact ⟨s', List.mem_cons_of_mem _ hs', hlabel⟩

theorem exists_subtree_of_unvisitedOf {s : Tree α} (ts : List (Tree α)) (visited : List α)
    (h : s ∈ subtreesOf (unvisitedOf ts visited).1) : ∃ s' ∈ subtreesOf ts, s'.label = s.label ∧
      (s.children.map label).Sublist (s'.children.map label) := by
  match ts with
  | [] =>
    rw [unvisitedOf, subtreesOf] at h
    cases h
  | t :: ts =>
    rw [subtreesOf]
    by_cases hmet : t.label ∈ visited
    · rw [unvisitedOf_of_mem hmet] at h
      obtain ⟨s', hs', hlabel⟩ := exists_subtree_of_unvisitedOf ts visited h
      exact ⟨s', List.mem_append_right _ hs', hlabel⟩
    · rw [unvisitedOf_of_not_mem hmet, subtreesOf, List.mem_append] at h
      rcases h with h | h
      · obtain ⟨s', hs', hlabel⟩ := exists_subtree_of_unvisited t visited h
        exact ⟨s', List.mem_append_left _ hs', hlabel⟩
      · obtain ⟨s', hs', hlabel⟩ := exists_subtree_of_unvisitedOf ts _ h
        exact ⟨s', List.mem_append_right _ hs', hlabel⟩

end

theorem mem_labels_of_unvisited (h : a ∈ (t.unvisited visited).1.labels) : a ∈ t.labels := by
  obtain ⟨s, hs, rfl⟩ := List.mem_map.1 h
  obtain ⟨s', hs', hlabel, -⟩ := exists_subtree_of_unvisited t visited hs
  rw [← hlabel]
  exact List.mem_map_of_mem hs'

mutual

/-- What is left of a tree has each label once, and none that was met before. -/
theorem nodup_unvisited (t : Tree α) (visited : List α) (h : t.label ∉ visited) :
    (t.unvisited visited).1.labels.Nodup ∧
      ∀ a ∈ (t.unvisited visited).1.labels, a ∉ visited := by
  match t with
  | node b ts =>
    obtain ⟨hnodup, hnew⟩ := nodup_unvisitedOf ts (b :: visited)
    rw [unvisited_node, labels_node, ← labelsOf_eq_flatMap, List.nodup_cons, List.forall_mem_cons]
    exact ⟨⟨fun hb => hnew b hb List.mem_cons_self, hnodup⟩, h,
      fun a ha hmet => hnew a ha (List.mem_cons_of_mem b hmet)⟩

theorem nodup_unvisitedOf (ts : List (Tree α)) (visited : List α) :
    (labelsOf (unvisitedOf ts visited).1).Nodup ∧
      ∀ a ∈ labelsOf (unvisitedOf ts visited).1, a ∉ visited := by
  match ts with
  | [] =>
    rw [unvisitedOf]
    exact ⟨List.nodup_nil, List.forall_mem_nil _⟩
  | t :: ts =>
    by_cases h : t.label ∈ visited
    · rw [unvisitedOf_of_mem h]
      exact nodup_unvisitedOf ts visited
    · obtain ⟨hfirst, hfirstnew⟩ := nodup_unvisited t visited h
      obtain ⟨hrest, hrestnew⟩ := nodup_unvisitedOf ts (t.unvisited visited).2
      rw [unvisitedOf_of_not_mem h, labelsOf_cons, List.forall_mem_append]
      refine ⟨hfirst.append hrest fun a ha ha' => ?_, hfirstnew, fun a ha hmet => ?_⟩
      · exact hrestnew a ha' ((mem_unvisited t visited).2 (.inr ha))
      · exact hrestnew a ha ((mem_unvisited t visited).2 (.inl hmet))

end

mutual

/-- Nothing is left out of a tree with distinct labels, none of them met before below the top. -/
theorem unvisited_of_nodup (t : Tree α) (visited : List α) (hnodup : t.labels.Nodup)
    (hnew : ∀ a ∈ labelsOf t.children, a ∉ visited) : (t.unvisited visited).1 = t := by
  match t with
  | node b ts =>
    rw [labels_node, ← labelsOf_eq_flatMap, List.nodup_cons] at hnodup
    have hbelow : (unvisitedOf ts (b :: visited)).1 = ts := by
      refine unvisitedOf_of_nodup ts (b :: visited) hnodup.2 fun a ha => ?_
      rw [List.mem_cons, not_or]
      exact ⟨fun hab => hnodup.1 (hab ▸ ha), hnew a ha⟩
    rw [unvisited_node, hbelow]

theorem unvisitedOf_of_nodup (ts : List (Tree α)) (visited : List α)
    (hnodup : (labelsOf ts).Nodup) (hnew : ∀ a ∈ labelsOf ts, a ∉ visited) :
    (unvisitedOf ts visited).1 = ts := by
  match ts with
  | [] => rw [unvisitedOf]
  | t :: ts =>
    rw [labelsOf_cons, List.nodup_append'] at hnodup
    obtain ⟨hfirst, hrest, hdisjoint⟩ := hnodup
    rw [labelsOf_cons, List.forall_mem_append] at hnew
    obtain ⟨hfirstnew, hrestnew⟩ := hnew
    rw [labels_eq_cons, List.forall_mem_cons] at hfirstnew
    have hkept := unvisited_of_nodup t visited hfirst hfirstnew.2
    rw [unvisitedOf_of_not_mem hfirstnew.1, hkept, unvisitedOf_of_nodup ts _ hrest fun a ha => ?_]
    rw [mem_unvisited, hkept, not_or]
    exact ⟨hrestnew a ha, fun hmet => hdisjoint hmet ha⟩

end

end DeployPlan.Tree
