import DeployPlan.Proofs.Containment.Cycle

/-!
# Loops of placements

A search for a root that is refused reports a loop: nodes that are placed on one another in turn,
the first one again at the end. When there is a loop, a node on it has nothing on top.
-/
namespace DeployPlan

namespace Topology

/-- A topology places the first node on the second one. -/
def PlacedOn (t : Topology) (a b : String) : Prop := t.parent? a = some b

/-- Nodes that are placed on one another in turn, the first one again at the end. -/
def IsLoop (t : Topology) (chain : List String) : Prop :=
  ∃ x between, chain = x :: between ++ [x] ∧ chain.IsChain t.PlacedOn

variable {t : Topology} {chain : List String} {x : String}

/-- The first node of a loop leads back to itself. -/
theorem IsLoop.transGen (h : t.IsLoop chain) : ∃ x, Relation.TransGen t.PlacedOn x x := by
  obtain ⟨x, between, rfl, hchain⟩ := h
  obtain ⟨y, rest, hrest⟩ : ∃ y rest, between ++ [x] = y :: rest :=
    List.exists_cons_of_ne_nil (by simp)
  rw [List.cons_append, hrest, List.isChain_cons_cons] at hchain
  have hlast : (y :: rest).getLast (List.cons_ne_nil y rest) = x := by simp [← hrest]
  exact ⟨x, .head' hchain.1 (List.relationReflTransGen_of_exists_isChain_cons rest hchain.2 hlast)⟩

/-- A node that leads back to itself is on a loop. -/
theorem exists_loop_of_transGen (h : Relation.TransGen t.PlacedOn x x) :
    ∃ chain, t.IsLoop chain := by
  obtain ⟨y, hstep, hback⟩ := Relation.TransGen.head'_iff.1 h
  obtain ⟨rest, hchain, hlast⟩ := List.exists_isChain_cons_of_relationReflTransGen hback
  refine ⟨x :: y :: rest, x, (y :: rest).dropLast, ?_, .cons_cons hstep hchain⟩
  rw [List.cons_append, ← hlast, List.dropLast_concat_getLast]

end Topology

namespace Containment

variable {g : Containment} {t : Topology} {x : String} {chain : List String}

/-- A cycle in the graph of a topology is a loop. -/
theorem IsCycleAbove.isLoop (h : g.IsCycleAbove x chain)
    (hparent : ∀ y, g.parent? y = t.parent? y) : t.IsLoop chain := by
  obtain ⟨first, rest, rfl⟩ : ∃ first rest, chain = first :: rest :=
    List.exists_cons_of_length_pos (Nat.lt_of_lt_of_le Nat.two_pos h.two_le)
  have hrest : rest ≠ [] := by
    rintro rfl
    have htwo := h.two_le
    simp at htwo
  have hlast : rest.getLast hrest = first := by
    have hclosed := h.closed
    rw [List.head?_cons, List.getLast?_eq_some_getLast (List.cons_ne_nil first rest),
      List.getLast_cons hrest] at hclosed
    exact (Option.some.inj hclosed).symm
  refine ⟨first, rest.dropLast, ?_, h.placed.imp fun a b hab => ?_⟩
  · nth_rewrite 3 [← hlast]
    rw [List.cons_append, List.dropLast_concat_getLast]
  · rw [Topology.PlacedOn, ← hparent, hab]

/-- A search that is refused for a declared node reports a loop. -/
theorem Describes.root_error (hg : g.Describes t) (hx : x ∈ t.ids) {f : Failure}
    (h : (g.root x).1 = .error f) : ∃ chain, f = .compile (.cyclicHost chain) ∧ t.IsLoop chain := by
  rw [← hg.ids_eq] at hx
  obtain ⟨⟨chain, hf, hcycle⟩, -⟩ := isCycleAbove_of_root hx h
  exact ⟨chain, hf, hcycle.isLoop hg.parent?_eq⟩

/-- A declared node with nothing on top is led into a loop. -/
theorem Describes.exists_loop (hg : g.Describes t) (hx : x ∈ t.ids) (h : t.topmost? x = none) :
    ∃ chain, t.IsLoop chain := by
  cases hroot : (g.root x).1 with
  | ok root =>
    rw [(hg.root_eq_ok_iff_topmost? hx).1 hroot] at h
    cases h
  | error f =>
    obtain ⟨chain, -, hchain⟩ := hg.root_error hx hroot
    exact ⟨chain, hchain⟩

/-- A node that is placed on others in turn ascends to the last of them. -/
theorem Describes.exists_ascend (hg : g.Describes t) {y : String}
    (h : Relation.TransGen t.PlacedOn x y) : ∃ k, 0 < k ∧ g.ascend k x = some y := by
  induction h with
  | single h => exact ⟨1, Nat.one_pos, by rw [ascend_one, hg.parent?_eq, h]⟩
  | tail _ hstep ih =>
    obtain ⟨k, hk, hy⟩ := ih
    refine ⟨k + 1, Nat.succ_pos k, ?_⟩
    rw [ascend_succ_last, hy, Option.bind_some, hg.parent?_eq, hstep]

/-- A node that leads back to itself has nothing on top. -/
theorem Describes.topmost?_of_transGen (hg : g.Describes t)
    (h : Relation.TransGen t.PlacedOn x x) : x ∈ t.ids ∧ t.topmost? x = none := by
  have hx : x ∈ t.ids := by
    obtain ⟨y, hy, -⟩ := Relation.TransGen.head'_iff.1 h
    rw [Topology.PlacedOn, ← hg.parent?_eq] at hy
    rw [← hg.ids_eq]
    exact (hg.mem_ids_of_parent? hy).1
  refine ⟨hx, Option.eq_none_iff_forall_ne_some.2 fun root hroot => ?_⟩
  obtain ⟨⟨j, hj⟩, hr⟩ := (hg.topmost?_eq_some_iff hx).1 hroot
  obtain ⟨k, hk, hcycle⟩ := hg.exists_ascend h
  have hlonger : g.ascend (k + j) x = some root := by
    rw [ascend_add, hcycle, Option.bind_some, hj]
  have := ascend_length_unique hj hr hlonger hr
  omega

end Containment

end DeployPlan
