import DeployPlan.Proofs.Containment.Topmost
import Mathlib.Data.List.Chain

/-!
# Reported cycles

A search for a root stops when a parent is a node that it passed. What it reports then is a cycle:
each node is placed on the next one, none is there twice but the first, which is also the last, and
the search has come to it by parents. The graph is as it was before the search.
-/
namespace DeployPlan.Containment

variable {g : Containment} {x y current parent : String} {path chain : List String} {n : Nat}

/-- Nodes that are placed on one another in turn, the first one again at the end and no other one
twice. The node `x` ascends to them. -/
structure IsCycleAbove (g : Containment) (x : String) (chain : List String) : Prop where
  two_le : 2 ≤ chain.length
  closed : chain.head? = chain.getLast?
  distinct : chain.dropLast.Nodup
  placed : chain.IsChain fun a b => g.parent? a = some b
  reached : ∃ k first, chain.head? = some first ∧ g.ascend k x = some first

/-- A chain of placements is an ascent. -/
theorem ascend_of_isChain {last : String} {rest : List String}
    (h : (y :: rest).IsChain fun a b => g.parent? a = some b)
    (hlast : (y :: rest).getLast? = some last) : g.ascend rest.length y = some last := by
  induction rest generalizing y with
  | nil =>
    rw [List.getLast?_singleton] at hlast
    exact hlast
  | cons z rest ih =>
    rw [List.isChain_cons_cons] at h
    rw [List.getLast?_cons_cons] at hlast
    rw [List.length_cons, ascend_succ, h.1, Option.bind_some]
    exact ih h.2 hlast

/-- Each node on a cycle ascends to itself, so none of them only leads into it. -/
theorem IsCycleAbove.ascend_self (h : g.IsCycleAbove x chain) (hy : y ∈ chain) :
    ∃ k, 0 < k ∧ g.ascend k y = some y := by
  obtain ⟨before, after, rfl⟩ := List.append_of_mem hy
  obtain ⟨first, rest, hsplit⟩ : ∃ first rest, before ++ [y] = first :: rest :=
    List.exists_cons_of_ne_nil (by simp)
  have hchain : before ++ y :: after = first :: (rest ++ after) := by
    rw [List.append_cons, hsplit, List.cons_append]
  have hlast : (y :: after).getLast? = some first := by
    have hclosed := h.closed
    rw [List.getLast?_append_of_ne_nil _ (List.cons_ne_nil y after), hchain] at hclosed
    exact hclosed.symm
  have hup : g.ascend after.length y = some first :=
    ascend_of_isChain h.placed.right_of_append hlast
  have hround : g.ascend rest.length first = some y := by
    have hprefix : (first :: rest).IsChain fun a b => g.parent? a = some b :=
      h.placed.prefix ⟨after, by rw [hchain, List.cons_append]⟩
    exact ascend_of_isChain hprefix (by rw [← hsplit, List.getLast?_concat])
  refine ⟨after.length + rest.length, ?_, ?_⟩
  · have htwo := h.two_le
    rw [hchain, List.length_cons, List.length_append] at htwo
    omega
  · rw [ascend_add, hup, Option.bind_some, hround]

theorem exists_takeWhile_append {a : String} {as : List String} (h : a ∈ as) :
    ∃ rest, as = as.takeWhile (· ≠ a) ++ a :: rest := by
  induction as with
  | nil => cases h
  | cons b as ih =>
    by_cases hb : b = a
    · exact ⟨as, by simp [hb]⟩
    · obtain ⟨rest, hrest⟩ := ih ((List.mem_cons.1 h).resolve_left (Ne.symm hb))
      refine ⟨rest, ?_⟩
      rw [List.takeWhile_cons_of_pos (by simpa using hb), List.cons_append, ← hrest]

/-- A search that began at `x` and stands at `current`: it has passed the nodes of the path, the
latest first, each placed on the one before it and none of them twice. -/
structure Passed (g : Containment) (x : String) (path : List String) (current : String) : Prop where
  head : path.head? = some current
  distinct : path.Nodup
  placed : path.IsChain fun a b => g.parent? b = some a
  reached : ∀ y ∈ path, ∃ k, g.ascend k x = some y

theorem passed_start (g : Containment) (x : String) : g.Passed x [x] x where
  head := rfl
  distinct := List.nodup_singleton x
  placed := List.isChain_singleton x
  reached y hy := by
    rw [List.mem_singleton.1 hy]
    exact ⟨0, rfl⟩

namespace Passed

theorem reached_parent (h : g.Passed x path current) (hp : g.parent? current = some parent) :
    ∃ k, g.ascend k x = some parent := by
  obtain ⟨k, hk⟩ := h.reached current (List.mem_of_mem_head? h.head)
  exact ⟨k + 1, by rw [ascend_succ_last, hk, Option.bind_some, hp]⟩

theorem step (h : g.Passed x path current) (hp : g.parent? current = some parent)
    (hnew : parent ∉ path) : g.Passed x (parent :: path) parent where
  head := rfl
  distinct := List.nodup_cons.2 ⟨hnew, h.distinct⟩
  placed := by
    refine List.isChain_cons.2 ⟨fun y hy => ?_, h.placed⟩
    rw [h.head] at hy
    cases hy
    exact hp
  reached := List.forall_mem_cons.2 ⟨h.reached_parent hp, h.reached⟩

/-- The way from a node that was passed back to it is a cycle. -/
theorem isCycleAbove (h : g.Passed x path current) (hp : g.parent? current = some parent)
    (hmem : parent ∈ path) :
    g.IsCycleAbove x (parent :: (path.takeWhile (· ≠ parent)).reverse ++ [parent]) := by
  obtain ⟨post, hpost⟩ := exists_takeWhile_append hmem
  generalize path.takeWhile (· ≠ parent) = passed at hpost
  have hback : (parent :: passed.reverse).Nodup := by
    have hdistinct : (passed ++ parent :: post).Nodup := hpost ▸ h.distinct
    rw [List.append_cons] at hdistinct
    have hprefix := List.nodup_reverse.2 hdistinct.of_append_left
    rwa [List.reverse_append] at hprefix
  have hway : (parent :: passed.reverse).IsChain fun a b => g.parent? a = some b := by
    have hprefix : (passed ++ [parent]).IsChain fun a b => g.parent? b = some a :=
      h.placed.prefix ⟨post, by rw [hpost, ← List.append_cons]⟩
    rwa [← List.isChain_reverse, List.reverse_append] at hprefix
  -- the way back ends where the search stands
  have hend : (parent :: passed.reverse).getLast? = some current := by
    have hhead := h.head
    rw [hpost] at hhead
    cases passed with
    | nil => exact hhead
    | cons first passed =>
      rw [List.reverse_cons, ← List.cons_append, List.getLast?_concat]
      exact hhead
  constructor
  case two_le => simp
  case closed => rw [List.getLast?_concat, List.cons_append, List.head?_cons]
  case distinct => rwa [List.dropLast_concat]
  case placed =>
    refine hway.append (List.isChain_singleton parent) fun y hy z hz => ?_
    rw [hend] at hy
    cases hy
    cases hz
    exact hp
  case reached =>
    obtain ⟨k, hk⟩ := h.reached parent hmem
    exact ⟨k, parent, rfl, hk⟩

end Passed

/-- A search that is refused has found a cycle. -/
theorem isCycleAbove_of_climb (h : g.Passed x path current)
    (hclimb : g.climb n path current = .error chain) : g.IsCycleAbove x chain := by
  induction n generalizing path current with
  | zero => cases hclimb
  | succ n ih =>
    rw [climb] at hclimb
    split at hclimb
    · cases hclimb
    · split at hclimb
      · cases hclimb
      · next parent hp =>
        split at hclimb
        · next hmem =>
          cases hclimb
          exact h.isCycleAbove hp (List.contains_iff_mem.1 hmem)
        · next hnew =>
          have hnew : parent ∉ path := fun hmem => hnew (List.contains_iff_mem.2 hmem)
          exact ih (h.step hp hnew) hclimb

/-- In any graph a search for the root of a node that is there fails with a cycle above the node,
and changes nothing. -/
theorem isCycleAbove_of_root {f : Failure} (hx : x ∈ g.ids) (h : (g.root x).1 = .error f) :
    (∃ chain, f = .compile (.cyclicHost chain) ∧ g.IsCycleAbove x chain) ∧ (g.root x).2 = g := by
  refine ⟨?_, eq_of_root_error (Prod.ext h rfl)⟩
  unfold root at h
  simp only [List.contains_iff_mem, hx, if_true] at h
  split at h
  · cases h
  · next chain hclimb =>
    cases h
    exact ⟨chain, rfl, isCycleAbove_of_climb (g.passed_start x) hclimb⟩

theorem IsCycleAbove.congr {g' : Containment} (hsame : g'.placements = g.placements)
    (h : g'.IsCycleAbove x chain) : g.IsCycleAbove x chain where
  two_le := h.two_le
  closed := h.closed
  distinct := h.distinct
  placed := by
    have hplaced := h.placed
    simp only [parent?, hsame] at hplaced
    exact hplaced
  reached := by
    obtain ⟨k, first, hfirst, hk⟩ := h.reached
    rw [ascend_congr hsame] at hk
    exact ⟨k, first, hfirst, hk⟩

/-- In the graph of a topology a node is placed on the parent that one of its templates declares. -/
theorem declared_of_parent? {t : Topology} {log log' : Log} (hbuild : build t log = (.ok g, log'))
    (h : g.parent? x = some y) : ∃ n ∈ t.nodes, n.id = x ∧ n.hostParent? = some y := by
  have hmem := mem_placements_of_parent? h
  rwa [(build_ok hbuild).2.1, Topology.mem_placements_iff] at hmem

/-- When the graph of a topology was asked for roots any number of times, and the search for the
root of a declared node then fails, it reports a cycle of declared parents that the node ascends to.
Every node that is reported is on the cycle, and the graph remembers what it did before. -/
theorem root_refused_by_cycle {t : Topology} {log log' : Log}
    (hbuild : build t log = (.ok g, log')) (calls : List String) (hx : x ∈ t.ids) {f : Failure}
    (h : ((g.after calls).root x).1 = .error f) :
    ∃ chain, f = .compile (.cyclicHost chain) ∧ g.IsCycleAbove x chain ∧
      (chain.IsChain fun a b => ∃ n ∈ t.nodes, n.id = a ∧ n.hostParent? = some b) ∧
      (∀ y ∈ chain, ∃ k, 0 < k ∧ g.ascend k y = some y) ∧
      ((g.after calls).root x).2 = g.after calls := by
  have hx' : x ∈ (g.after calls).ids := by rwa [ids_after, (build_ok hbuild).1]
  obtain ⟨⟨chain, hf, habove⟩, hsame⟩ := isCycleAbove_of_root hx' h
  have hcycle : g.IsCycleAbove x chain := habove.congr (placements_after g calls)
  have hdeclared : chain.IsChain fun a b => ∃ n ∈ t.nodes, n.id = a ∧ n.hostParent? = some b :=
    hcycle.placed.imp fun a b hab => declared_of_parent? hbuild hab
  exact ⟨chain, hf, hcycle, hdeclared, fun y hy => hcycle.ascend_self hy, hsame⟩

/-- Three nodes that are placed on one another in a ring, a stem on one of them with a leaf on it,
and an app on a machine. -/
def ringUnderStem : Topology where
  name := "site"
  nodes := [guest "left" "top", guest "top" "right", guest "right" "left", guest "stem" "top",
    guest "leaf" "stem", guest "app" "vm", ⟨"vm", "Machine", none, none, ∅, [], [], [], []⟩]
  groups := []
  dependencies := []
  archive := none
where
  /-- A node that is placed on another one. -/
  guest (id host : String) : NodeTemplate :=
    ⟨id, "App", none, none, ∅, ["host"], [⟨id ++ "_host", "host", host, hostedOn, ∅, []⟩], [], []⟩

/-- After a search that succeeded and one that failed, the search from the leaf reports the ring
from the node that the stem is placed on. -/
theorem root_leaf_ringUnderStem : ∃ g log,
    build ringUnderStem (.start .error false) = (.ok g, log) ∧
    "leaf" ∈ ringUnderStem.ids ∧
    ((g.after ["app", "stem"]).root "leaf").1 =
      .error (.compile (.cyclicHost ["top", "right", "left", "top"])) ∧
    g.IsCycleAbove "leaf" ["top", "right", "left", "top"] ∧
    ((g.after ["app", "stem"]).root "leaf").2 = g.after ["app", "stem"] := by
  have hleaf : "leaf" ∈ ringUnderStem.ids := by decide +kernel
  have hbuild : build ringUnderStem (.start .error false) =
      (.ok ⟨ringUnderStem.ids, [("left", "top"), ("top", "right"), ("right", "left"),
        ("stem", "top"), ("leaf", "stem"), ("app", "vm")], ∅⟩, .start .error false) := by
    rfl
  refine ⟨_, _, hbuild, hleaf, ?_⟩
  generalize hg : Containment.mk ringUnderStem.ids _ ∅ = g at hbuild
  have hrefused : ((g.after ["app", "stem"]).root "leaf").1 =
      .error (.compile (.cyclicHost ["top", "right", "left", "top"])) := by
    rw [← hg]
    rfl
  obtain ⟨chain, hchain, hcycle, -, -, hsame⟩ :=
    root_refused_by_cycle hbuild ["app", "stem"] hleaf hrefused
  cases hchain
  exact ⟨hrefused, hcycle, hsame⟩

end DeployPlan.Containment
