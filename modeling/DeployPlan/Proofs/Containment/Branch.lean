import DeployPlan.Proofs.Containment.Root
import DeployPlan.Proofs.Tree.Unvisited

/-!
# Trees of ids below a node

A tree of ids is as deep as matters to a traversal that passes over the nodes it has met. When ids
are distinct, the tree below a node holds what ascends to the node within the depth of the tree; and
below a root nothing is cut off: the tree holds each node that ends there once, over exactly its
children.
-/
namespace DeployPlan.Containment

variable {g : Containment} {x y id root : String} {n : Nat} {visited : List String}

theorem label_treeWithin (g : Containment) (n : Nat) (id : String) :
    (g.treeWithin n id).label = id := by
  cases n <;> rfl

theorem tree_congr {g' : Containment} (hi : g'.ids = g.ids) (hp : g'.placements = g.placements) :
    g'.tree = g.tree := by
  have hw (n : Nat) (x : String) : g'.treeWithin n x = g.treeWithin n x := by
    induction n generalizing x with
    | zero => rfl
    | succ n ih =>
      have hc : g'.children x = g.children x := by simp only [children, hp]
      rw [treeWithin, treeWithin, hc, List.map_congr_left fun y _ => ih y]
  funext x
  rw [tree, tree, hi, hw]

/-- What is below the top of a tree of ids is placed on a node. -/
theorem mem_children_of_treeWithin (hx : x ∈ (g.treeWithin n id).labels) :
    x = id ∨ ∃ y, x ∈ g.children y := by
  induction n generalizing id with
  | zero => exact .inl (by simpa [treeWithin] using hx)
  | succ n ih =>
    rw [treeWithin, Tree.labels_node, List.flatMap_map, List.mem_cons, List.mem_flatMap] at hx
    rcases hx with rfl | ⟨c, hc, hx⟩
    · exact .inl rfl
    · rcases ih hx with rfl | hbelow
      · exact .inr ⟨id, hc⟩
      · exact .inr hbelow

/-- Of the nodes without a parent a traversal of a tree meets the one on top only. -/
theorem mem_unvisited_tree_iff (hx : g.parent? x = none) :
    x ∈ ((g.tree root).unvisited visited).2 ↔ x = root ∨ x ∈ visited := by
  have htop : x ∈ ((g.tree root).unvisited visited).1.labels ↔ x = root := by
    constructor
    · intro hmem
      rcases mem_children_of_treeWithin (Tree.mem_labels_of_unvisited hmem) with rfl | ⟨y, hy⟩
      · rfl
      · obtain ⟨z, hz⟩ := exists_parent?_of_mem_children hy
        rw [hx] at hz
        cases hz
    · rintro rfl
      rw [Tree.labels_eq_cons, Tree.label_unvisited, tree, label_treeWithin]
      exact List.mem_cons_self
  rw [Tree.mem_unvisited, htop, or_comm]

theorem Sound.mem_ids_of_children (hg : g.Sound) (hx : x ∈ g.children y) : x ∈ g.ids := by
  obtain ⟨e, he, rfl⟩ := List.mem_map.1 hx
  exact hg.child_mem e (List.mem_filter.1 he).1

/-- The tree below a declared node holds declared nodes only. -/
theorem Sound.mem_ids_of_labels (hg : g.Sound) (hid : id ∈ g.ids)
    (hx : x ∈ (g.tree id).labels) : x ∈ g.ids := by
  rcases mem_children_of_treeWithin hx with rfl | ⟨y, hy⟩
  · exact hid
  · exact hg.mem_ids_of_children hy

/-- How many declared nodes are not met yet. -/
def pending (g : Containment) (visited : List String) : Nat :=
  (g.ids.filter (· ∉ visited)).length

theorem pending_le_of_subset {met : List String} (h : visited ⊆ met) :
    g.pending met ≤ g.pending visited := by
  refine (List.monotone_filter_right g.ids fun x hx => ?_).length_le
  simp only [decide_eq_true_eq] at hx ⊢
  exact fun hmem => hx (h hmem)

theorem pending_cons_lt (hid : id ∈ g.ids) (hnew : id ∉ visited) :
    g.pending (id :: visited) < g.pending visited := by
  have hsplit : g.ids.filter (· ∉ id :: visited) =
      (g.ids.filter (· ∉ visited)).filter (· ≠ id) := by
    rw [List.filter_filter]
    refine List.filter_congr fun x _ => ?_
    simp [not_or]
  rw [pending, hsplit]
  refine List.length_filter_lt_length_iff_exists.2 ⟨id, ?_, by simp⟩
  exact List.mem_filter.2 ⟨hid, by simpa using hnew⟩

/-- A tree of ids that is as deep as nodes are pending is deep enough for a traversal that passes
over the nodes it has met. -/
theorem Sound.unvisited_treeWithin_succ (hg : g.Sound) (hid : id ∈ g.ids) (hnew : id ∉ visited)
    (hdeep : g.pending visited ≤ n) :
    (g.treeWithin (n + 1) id).unvisited visited = (g.treeWithin n id).unvisited visited := by
  induction n generalizing id visited with
  | zero =>
    have := pending_cons_lt hid hnew
    omega
  | succ n ih =>
    have hbelow (ids : List String) (hids : ∀ c ∈ ids, c ∈ g.ids) (met : List String)
        (hmet : g.pending met ≤ n) : Tree.unvisitedOf (ids.map (g.treeWithin (n + 1))) met =
          Tree.unvisitedOf (ids.map (g.treeWithin n)) met := by
      induction ids generalizing met with
      | nil => rfl
      | cons c ids ihs =>
        rw [List.forall_mem_cons] at hids
        rw [List.map_cons, List.map_cons]
        by_cases hc : c ∈ met
        · rw [Tree.unvisitedOf_of_mem (by rwa [label_treeWithin]),
            Tree.unvisitedOf_of_mem (by rwa [label_treeWithin]), ihs hids.2 met hmet]
        · rw [Tree.unvisitedOf_of_not_mem (by rwa [label_treeWithin]),
            Tree.unvisitedOf_of_not_mem (by rwa [label_treeWithin]), ih hids.1 hc hmet,
            ihs hids.2 _ (Nat.le_trans (pending_le_of_subset fun x hx => ?_) hmet)]
          exact (Tree.mem_unvisited _ met).2 (.inl hx)
    have hlt := pending_cons_lt hid hnew
    rw [treeWithin, treeWithin, Tree.unvisited_node, Tree.unvisited_node,
      hbelow _ (fun c hc => hg.mem_ids_of_children hc) _ (by omega)]

/-- However deep trees of ids are made, such a traversal finds in them what it finds in `tree`. -/
theorem Sound.unvisited_tree (hg : g.Sound) (hid : id ∈ g.ids) (hnew : id ∉ visited)
    (hdeep : g.ids.length ≤ n) :
    (g.treeWithin n id).unvisited visited = (g.tree id).unvisited visited := by
  have hpending : g.pending visited ≤ g.ids.length := List.length_filter_le _ _
  obtain ⟨k, rfl⟩ := Nat.exists_eq_add_of_le hdeep
  induction k with
  | zero => rfl
  | succ k ih =>
    rw [← ih (Nat.le_add_right _ k)]
    exact hg.unvisited_treeWithin_succ hid hnew (Nat.le_trans hpending (Nat.le_add_right _ k))

/-- A tree of ids holds what ascends to its top in as many steps as it is deep. -/
theorem mem_labels_treeWithin (hg : g.Distinct) :
    x ∈ (g.treeWithin n id).labels ↔ ∃ k ≤ n, g.ascend k x = some id := by
  induction n generalizing id with
  | zero =>
    simp only [treeWithin, Tree.labels_node, List.flatMap_nil, List.mem_singleton]
    constructor
    · rintro rfl
      exact ⟨0, Nat.le_refl 0, rfl⟩
    · rintro ⟨k, hk, h⟩
      obtain rfl := Nat.le_zero.1 hk
      exact Option.some.inj h
  | succ n ih =>
    simp only [treeWithin, Tree.labels_node, List.mem_cons, List.mem_flatMap, List.mem_map,
      exists_exists_and_eq_and, ih, hg.mem_children_iff]
    constructor
    · rintro (rfl | ⟨c, hc, k, hk, h⟩)
      · exact ⟨0, Nat.zero_le _, rfl⟩
      · exact ⟨k + 1, by omega, by rw [ascend_succ_last, h, Option.bind_some, hc]⟩
    · rintro ⟨k, hk, h⟩
      cases k with
      | zero => exact .inl (Option.some.inj h)
      | succ k =>
        rw [ascend_succ_last] at h
        obtain ⟨c, hc, hparent⟩ := Option.bind_eq_some_iff.1 h
        exact .inr ⟨c, hparent, k, by omega, hc⟩

/-- A node does not come back to itself on the way up. -/
def Acyclic (g : Containment) (x : String) : Prop := ∀ k, 0 < k → g.ascend k x ≠ some x

theorem Acyclic.of_parent?_none (h : g.parent? x = none) : g.Acyclic x := by
  intro k hk he
  rw [ascend_of_parent?_none h hk] at he
  cases he

/-- On a cycle the parent of a node comes back to itself with the node. -/
theorem Acyclic.child (h : g.Acyclic y) (hx : g.parent? x = some y) : g.Acyclic x := by
  intro k hk he
  obtain ⟨k, rfl⟩ := Nat.exists_eq_add_of_lt hk
  refine h (k + 1) (by omega) ?_
  have hy : g.ascend (0 + k + 1) x = (g.parent? x).bind (g.ascend k) := by
    rw [Nat.zero_add, ascend_succ]
  rw [hy, hx, Option.bind_some] at he
  rw [ascend_succ_last, he, Option.bind_some, hx]

/-- Of two nodes on one ascent to children of an acyclic node the two are the same. -/
theorem child_unique (hid : g.Acyclic id) {c d : String} {j k : Nat} (hjk : j ≤ k)
    (hc : g.parent? c = some id) (hd : g.parent? d = some id)
    (hj : g.ascend j x = some c) (hk : g.ascend k x = some d) : c = d := by
  obtain ⟨m, rfl⟩ := Nat.exists_eq_add_of_le hjk
  rw [ascend_add, hj, Option.bind_some] at hk
  cases m with
  | zero => exact Option.some.inj hk
  | succ m =>
    -- the ascent from `c` to `d` goes through `id`, which would lie below its own child
    rw [ascend_succ, hc, Option.bind_some] at hk
    refine absurd ?_ (hid (m + 1) (by omega))
    rw [ascend_succ_last, hk, Option.bind_some, hd]

/-- No node comes twice below an acyclic one. -/
theorem nodup_labels_treeWithin (hg : g.Distinct) (hid : g.Acyclic id) :
    (g.treeWithin n id).labels.Nodup := by
  induction n generalizing id with
  | zero => simp [treeWithin]
  | succ n ih =>
    simp only [treeWithin, Tree.labels_node, List.flatMap_map, List.nodup_cons]
    constructor
    · intro h
      obtain ⟨c, hc, hx⟩ := List.mem_flatMap.1 h
      obtain ⟨k, -, hk⟩ := (mem_labels_treeWithin hg).1 hx
      refine hid (k + 1) (by omega) ?_
      rw [ascend_succ_last, hk, Option.bind_some, hg.mem_children_iff.1 hc]
    · rw [List.nodup_flatMap]
      refine ⟨fun c hc => ih (hid.child (hg.mem_children_iff.1 hc)), ?_⟩
      refine (hg.children_nodup id).imp_of_mem fun {c d} hc hd hne => ?_
      refine List.disjoint_left.2 fun x hxc hxd => ?_
      obtain ⟨j, -, hj⟩ := (mem_labels_treeWithin hg).1 hxc
      obtain ⟨k, -, hk⟩ := (mem_labels_treeWithin hg).1 hxd
      have hc' := hg.mem_children_iff.1 hc
      have hd' := hg.mem_children_iff.1 hd
      rcases Nat.le_total j k with h | h
      · exact hne (child_unique hid h hc' hd' hj hk)
      · exact hne (child_unique hid h hd' hc' hk hj).symm

/-- When nothing lies deeper, every node of a tree of ids is over its children in the graph. -/
theorem children_of_mem_subtrees (hg : g.Distinct) (hdeep : ∀ y, g.ascend (n + 1) y ≠ some id)
    {t : Tree String} (ht : t ∈ (g.treeWithin n id).subtrees) :
    t.children.map Tree.label = g.children t.label := by
  induction n generalizing id with
  | zero =>
    simp only [treeWithin, Tree.subtrees_node, List.flatMap_nil, List.mem_singleton] at ht
    have hnone : g.children id = [] := by
      refine List.eq_nil_iff_forall_not_mem.2 fun c hc => hdeep c ?_
      rw [Nat.zero_add, ascend_one]
      exact hg.mem_children_iff.1 hc
    simp [ht, Tree.children, Tree.label, hnone]
  | succ n ih =>
    simp only [treeWithin, Tree.subtrees_node, List.flatMap_map, List.mem_cons] at ht
    rcases ht with rfl | ht
    · change ((g.children id).map (g.treeWithin n)).map Tree.label = g.children id
      simp [Function.comp_def, label_treeWithin]
    · obtain ⟨c, hc, hmem⟩ := List.mem_flatMap.1 ht
      refine ih (fun y hy => hdeep y ?_) hmem
      rw [ascend_succ_last, hy, Option.bind_some, hg.mem_children_iff.1 hc]

theorem mem_labels_tree (hg : g.Distinct) (hr : g.parent? root = none) :
    x ∈ (g.tree root).labels ↔ g.EndsAt x root := by
  rw [tree, mem_labels_treeWithin hg]
  constructor
  · rintro ⟨k, -, h⟩
    exact ⟨⟨k, h⟩, hr⟩
  · rintro ⟨⟨k, h⟩, -⟩
    refine ⟨k, ?_, h⟩
    cases k with
    | zero => exact Nat.zero_le _
    | succ k => exact Nat.le_of_lt (hg.ascend_lt (hg.mem_ids_of_ascend_succ h) hr h)

theorem nodup_labels_tree (hg : g.Distinct) (hr : g.parent? root = none) :
    (g.tree root).labels.Nodup :=
  nodup_labels_treeWithin hg (.of_parent?_none hr)

/-- In the tree of a root every node is over its children. -/
theorem children_of_mem_subtrees_tree (hg : g.Distinct) (hr : g.parent? root = none)
    {t : Tree String} (ht : t ∈ (g.tree root).subtrees) :
    t.children.map Tree.label = g.children t.label := by
  refine children_of_mem_subtrees hg (fun y hy => ?_) ht
  have := hg.ascend_lt (hg.mem_ids_of_ascend_succ hy) hr hy
  omega

end DeployPlan.Containment
