import DeployPlan.Containment
import Mathlib.Data.List.Nodup
import Mathlib.Data.List.Perm.Subperm
import Mathlib.Tactic.Common

/-!
# Ascending to a root

A node ascends by parents. The node that an ascent ends at is unique, and an ascent passes no node
twice, so it is shorter than the list of nodes. A sound graph places declared nodes on declared
nodes and remembers only ends of ascents; finding a root keeps it sound. When ids are distinct no
node is placed twice besides, and a node's parent is the one node that has it as a child.
-/
namespace DeployPlan.Containment

variable {g : Containment} {x y r r' : String} {j k : Nat}

/-- The node `k` parents above a node. -/
def ascend (g : Containment) : Nat → String → Option String
  | 0, x => some x
  | k + 1, x => (g.parent? x).bind (g.ascend k)

@[simp] theorem ascend_zero (g : Containment) (x : String) : g.ascend 0 x = some x := rfl

theorem ascend_succ (g : Containment) (k : Nat) (x : String) :
    g.ascend (k + 1) x = (g.parent? x).bind (g.ascend k) := rfl

theorem ascend_one (g : Containment) (x : String) : g.ascend 1 x = g.parent? x := by
  rw [ascend_succ]
  cases g.parent? x <;> rfl

theorem ascend_add (g : Containment) (j k : Nat) (x : String) :
    g.ascend (j + k) x = (g.ascend j x).bind (g.ascend k) := by
  induction j generalizing x with
  | zero => simp
  | succ j ih =>
    rw [Nat.succ_add, ascend_succ, ascend_succ, Option.bind_assoc]
    congr 1
    funext y
    exact ih y

theorem ascend_succ_last (g : Containment) (k : Nat) (x : String) :
    g.ascend (k + 1) x = (g.ascend k x).bind g.parent? := by
  rw [ascend_add]
  congr 1
  funext y
  exact g.ascend_one y

theorem ascend_of_parent?_none (h : g.parent? r = none) (hk : 0 < k) : g.ascend k r = none := by
  cases k with
  | zero => omega
  | succ k => rw [ascend_succ, h, Option.bind_none]

theorem ascend_congr {g' : Containment} (h : g'.placements = g.placements) (k : Nat) (x : String) :
    g'.ascend k x = g.ascend k x := by
  induction k generalizing x with
  | zero => rfl
  | succ k ih =>
    have hp : g'.parent? x = g.parent? x := by simp only [parent?, h]
    rw [ascend_succ, ascend_succ, hp]
    congr 1
    funext y
    exact ih y

/-- A node ascends to `r`, which has no parent. -/
def EndsAt (g : Containment) (x r : String) : Prop :=
  (∃ k, g.ascend k x = some r) ∧ g.parent? r = none

theorem EndsAt.of_parent?_none (h : g.parent? x = none) : g.EndsAt x x := ⟨⟨0, rfl⟩, h⟩

/-- What is below a node ends where the node ends. -/
theorem EndsAt.of_ascend (h : g.EndsAt y r) (hx : g.ascend k x = some y) : g.EndsAt x r := by
  obtain ⟨⟨j, hj⟩, hr⟩ := h
  exact ⟨⟨k + j, by rw [ascend_add, hx, Option.bind_some, hj]⟩, hr⟩

theorem EndsAt.congr {g' : Containment} (h : g'.placements = g.placements) :
    g'.EndsAt x r ↔ g.EndsAt x r := by
  simp only [EndsAt, ascend_congr h, parent?, h]

/-- Two ascents from one node to nodes without parents have the same length. -/
theorem ascend_length_unique (hj : g.ascend j x = some r) (hr : g.parent? r = none)
    (hk : g.ascend k x = some r') (hr' : g.parent? r' = none) : j = k := by
  rcases Nat.lt_trichotomy j k with h | h | h
  · obtain ⟨d, rfl⟩ := Nat.exists_eq_add_of_lt h
    rw [Nat.add_assoc, ascend_add, hj, Option.bind_some,
      ascend_of_parent?_none hr (by omega)] at hk
    cases hk
  · exact h
  · obtain ⟨d, rfl⟩ := Nat.exists_eq_add_of_lt h
    rw [Nat.add_assoc, ascend_add, hk, Option.bind_some,
      ascend_of_parent?_none hr' (by omega)] at hj
    cases hj

theorem EndsAt.unique (h : g.EndsAt x r) (h' : g.EndsAt x r') : r = r' := by
  obtain ⟨⟨j, hj⟩, hr⟩ := h
  obtain ⟨⟨k, hk⟩, hr'⟩ := h'
  have he := ascend_length_unique hj hr hk hr'
  subst he
  exact Option.some.inj (hj.symm.trans hk)

theorem EndsAt.eq_self (h : g.EndsAt x r) (hx : g.parent? x = none) : r = x :=
  h.unique (.of_parent?_none hx)

/-- An ascent to a node without a parent passes no node twice. -/
theorem ascend_injective (hr : g.parent? r = none) (hk : g.ascend k x = some r) {i j : Nat}
    (hi : i ≤ k) (hj : j ≤ k) (h : g.ascend i x = g.ascend j x) : i = j := by
  have hsplit (l : Nat) (hl : l ≤ k) : (g.ascend l x).bind (g.ascend (k - l)) = some r := by
    rw [← ascend_add, Nat.add_sub_cancel' hl, hk]
  obtain ⟨y, hy, hyi⟩ := Option.bind_eq_some_iff.1 (hsplit i hi)
  have hyj := hsplit j hj
  rw [← h, hy, Option.bind_some] at hyj
  have := ascend_length_unique hyi hr hyj hr
  omega

/-- A graph that places declared nodes on declared nodes, and that remembers only ends of ascents.
-/
structure Sound (g : Containment) : Prop where
  child_mem : ∀ e ∈ g.placements, e.1 ∈ g.ids
  parent_mem : ∀ e ∈ g.placements, e.2 ∈ g.ids
  roots_endsAt : ∀ x r, g.roots[x]? = some r → g.EndsAt x r

/-- A sound graph in which no node is placed twice. -/
structure Distinct (g : Containment) : Prop extends g.Sound where
  keys_nodup : (g.placements.map (·.1)).Nodup

theorem mem_placements_of_parent? (h : g.parent? x = some y) : (x, y) ∈ g.placements := by
  obtain ⟨l₁, l₂, he, -⟩ := List.lookup_eq_some_iff.1 h
  rw [← List.mem_reverse, he]
  exact List.mem_append_right l₁ List.mem_cons_self

/-- What is placed somewhere has a parent, if not that one. -/
theorem exists_parent?_of_mem_children (h : x ∈ g.children y) : ∃ z, g.parent? x = some z := by
  obtain ⟨e, he, rfl⟩ := List.mem_map.1 h
  have hmem : e ∈ g.placements.reverse := List.mem_reverse.2 (List.mem_filter.1 he).1
  refine Option.ne_none_iff_exists'.1 fun hnone => ?_
  simpa using List.lookup_eq_none_iff.1 hnone e hmem

namespace Sound

variable (hg : g.Sound)
include hg

theorem mem_ids_of_parent? (h : g.parent? x = some y) : x ∈ g.ids ∧ y ∈ g.ids :=
  ⟨hg.child_mem _ (mem_placements_of_parent? h), hg.parent_mem _ (mem_placements_of_parent? h)⟩

theorem mem_ids_of_ascend (hx : x ∈ g.ids) (h : g.ascend k x = some y) : y ∈ g.ids := by
  cases k with
  | zero => cases h; exact hx
  | succ k =>
    rw [ascend_succ_last] at h
    obtain ⟨z, -, hz⟩ := Option.bind_eq_some_iff.1 h
    exact (hg.mem_ids_of_parent? hz).2

theorem mem_ids_of_ascend_succ (h : g.ascend (k + 1) x = some y) : x ∈ g.ids := by
  rw [ascend_succ] at h
  obtain ⟨z, hz, -⟩ := Option.bind_eq_some_iff.1 h
  exact (hg.mem_ids_of_parent? hz).1

/-- An ascent to a node without a parent is shorter than the list of nodes. -/
theorem ascend_lt (hx : x ∈ g.ids) (hr : g.parent? r = none) (hk : g.ascend k x = some r) :
    k < g.ids.length := by
  have hsub : (List.range (k + 1)).map (g.ascend · x) ⊆ g.ids.map some := by
    intro o ho
    obtain ⟨i, hi, rfl⟩ := List.mem_map.1 ho
    have hik : i ≤ k := Nat.lt_succ_iff.1 (List.mem_range.1 hi)
    obtain ⟨y, hy, -⟩ : ∃ y, g.ascend i x = some y ∧ g.ascend (k - i) y = some r := by
      rw [← Nat.add_sub_cancel' hik, ascend_add] at hk
      exact Option.bind_eq_some_iff.1 hk
    simp only [hy]
    exact List.mem_map_of_mem (hg.mem_ids_of_ascend hx hy)
  have hnd : ((List.range (k + 1)).map (g.ascend · x)).Nodup := by
    refine List.Nodup.map_on (fun i hi j hj h => ?_) List.nodup_range
    exact ascend_injective hr hk (Nat.lt_succ_iff.1 (List.mem_range.1 hi))
      (Nat.lt_succ_iff.1 (List.mem_range.1 hj)) h
  have hle := (hnd.subperm hsub).length_le
  simp only [List.length_map, List.length_range] at hle
  omega

end Sound

namespace Distinct

variable (hg : g.Distinct)
include hg

theorem parent?_eq_some_iff : g.parent? x = some y ↔ (x, y) ∈ g.placements := by
  refine ⟨mem_placements_of_parent?, fun h => ?_⟩
  obtain ⟨l₁, l₂, he⟩ := List.append_of_mem (List.mem_reverse.2 h)
  have hk := List.nodup_reverse.2 hg.keys_nodup
  rw [← List.map_reverse, he, List.map_append, List.map_cons, List.nodup_append] at hk
  refine List.lookup_eq_some_iff.2 ⟨l₁, l₂, he, fun e hel => ?_⟩
  have hne : e.1 ≠ x := hk.2.2 e.1 (List.mem_map_of_mem hel) x List.mem_cons_self
  simpa using hne.symm

/-- A node is among the children of another exactly when that one is its parent. -/
theorem mem_children_iff : x ∈ g.children y ↔ g.parent? x = some y := by
  rw [hg.parent?_eq_some_iff]
  simp [children]

theorem children_nodup (y : String) : (g.children y).Nodup :=
  hg.keys_nodup.sublist (List.filter_sublist.map _)

end Distinct

end DeployPlan.Containment
