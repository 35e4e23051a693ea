import DeployPlan.Proofs.Containment.Root
import DeployPlan.Scope

/-!
# Two walks to the top

A containment graph finds roots by walks that remember what they found; a topology finds the topmost
node by walks that start anew each time. Both find the end of the ascent, and neither finds anything
for a node that ascends into a cycle, whatever the graph was asked before.
-/
namespace DeployPlan

namespace Containment

variable {g : Containment} {x y current parent root : String} {path : List String} {n : Nat}

theorem EndsAt.above (h : g.EndsAt x root) (hp : g.parent? x = some y) : g.EndsAt y root := by
  obtain ⟨⟨k, hk⟩, hr⟩ := h
  cases k with
  | zero =>
    cases hk
    rw [hr] at hp
    cases hp
  | succ k =>
    rw [ascend_succ, hp, Option.bind_some] at hk
    exact ⟨⟨k, hk⟩, hr⟩

/-- A walk that has an end meets no node again. -/
theorem Walk.parent_not_mem (h : g.Walk path current) (hend : g.EndsAt current root)
    (hp : g.parent? current = some parent) : parent ∉ path := by
  intro hmem
  obtain ⟨⟨j, hj⟩, hr⟩ := hend
  obtain ⟨k, hk⟩ := h.passed parent hmem
  have hcycle : g.ascend (k + 1) current = some current := by
    rw [ascend_succ, hp, Option.bind_some, hk]
  -- once around the cycle is a longer ascent to the same end
  have hlonger : g.ascend (k + 1 + j) current = some root := by
    rw [ascend_add, hcycle, Option.bind_some, hj]
  have := ascend_length_unique hj hr hlonger hr
  omega

/-- A walk of a sound graph from a node that has an end succeeds there. -/
theorem climb_of_endsAt (hg : g.Sound) (hw : g.Walk path current)
    (hfuel : g.ids.length < path.length + n) (hend : g.EndsAt current root) :
    ∃ path', g.climb n path current = .ok (root, path') := by
  induction n generalizing path current with
  | zero =>
    have := hw.length_le
    omega
  | succ n ih =>
    rw [climb]
    cases hroots : g.roots[current]? with
    | some found =>
      have hfound : found = root := (hg.roots_endsAt _ _ hroots).unique hend
      exact ⟨path, by rw [hfound]⟩
    | none =>
      cases hp : g.parent? current with
      | none =>
        have hself : root = current := hend.eq_self hp
        exact ⟨path, by rw [hself]⟩
      | some parent =>
        have hnew : parent ∉ path := hw.parent_not_mem hend hp
        simp only [List.contains_iff_mem, hnew, if_false]
        exact ih (hw.step hg hp hnew) (by simp only [List.length_cons]; omega) (hend.above hp)

/-- In a sound graph the root of a declared node is the end of its ascent. -/
theorem Sound.root_eq_ok_iff (hg : g.Sound) (hx : x ∈ g.ids) :
    (g.root x).1 = .ok root ↔ g.EndsAt x root := by
  constructor
  · intro h
    exact (hg.root_ok (Prod.ext h rfl)).1
  · intro hend
    obtain ⟨path, hc⟩ :=
      climb_of_endsAt (n := g.ids.length + 1) hg (.start hx) (by simp; omega) hend
    unfold Containment.root
    simp only [List.contains_iff_mem, hx, if_true, hc]

/-- The search for the root of a declared node fails with a cycle only. -/
theorem root_eq_error {f : Failure} (hx : x ∈ g.ids) (h : (g.root x).1 = .error f) :
    ∃ chain, f = .compile (.cyclicHost chain) := by
  unfold root at h
  simp only [List.contains_iff_mem, hx, if_true] at h
  split at h
  · cases h
  · next chain _ =>
    cases h
    exact ⟨chain, rfl⟩

/-- A search that fails changes nothing. -/
theorem eq_of_root_error {f : Failure} {g' : Containment} (h : g.root x = (.error f, g')) :
    g' = g := by
  unfold root at h
  split at h
  · split at h
    · cases h
    · cases h
      rfl
  · cases h
    rfl

theorem Sound.after_root (hg : g.Sound) (x : String) : (g.root x).2.Sound := by
  generalize h : g.root x = found
  obtain ⟨outcome, g'⟩ := found
  cases outcome with
  | ok root => exact (hg.root_ok h).2
  | error f => rwa [eq_of_root_error h]

/-- A graph after roots were looked for in turn, found or not. -/
def after (g : Containment) (calls : List String) : Containment :=
  calls.foldl (fun g id => (g.root id).2) g

theorem Sound.after (hg : g.Sound) (calls : List String) : (g.after calls).Sound := by
  induction calls generalizing g with
  | nil => exact hg
  | cons id calls ih => exact ih (hg.after_root id)

@[simp] theorem placements_after (g : Containment) (calls : List String) :
    (g.after calls).placements = g.placements := by
  induction calls generalizing g with
  | nil => rfl
  | cons id calls ih => exact (ih _).trans (g.placements_root id)

@[simp] theorem ids_after (g : Containment) (calls : List String) :
    (g.after calls).ids = g.ids := by
  induction calls generalizing g with
  | nil => rfl
  | cons id calls ih => exact (ih _).trans (g.ids_root id)

/-- A sound graph of the nodes and the parents of a topology. -/
structure Describes (g : Containment) (t : Topology) : Prop extends g.Sound where
  ids_eq : g.ids = t.ids
  parent?_eq : ∀ x, g.parent? x = t.parent? x

theorem describes_of_build {t : Topology} {log log' : Log} (h : build t log = (.ok g, log')) :
    g.Describes t where
  toSound := sound_of_build h
  ids_eq := (build_ok h).1
  parent?_eq x := by rw [parent?, (build_ok h).2.1, Topology.parent?]

theorem Describes.after {t : Topology} (h : g.Describes t) (calls : List String) :
    (g.after calls).Describes t where
  toSound := h.toSound.after calls
  ids_eq := by rw [ids_after, h.ids_eq]
  parent?_eq x := by rw [parent?, placements_after, ← h.parent?_eq, parent?]

section

variable {t : Topology} (hg : g.Describes t)
include hg

/-- What a walk of the topology finds is the end of the ascent. -/
theorem Describes.endsAt_of_climb (h : t.climb n path current = some root) :
    g.EndsAt current root := by
  induction n generalizing path current with
  | zero => cases h
  | succ n ih =>
    rw [Topology.climb, ← hg.parent?_eq] at h
    cases hp : g.parent? current with
    | none =>
      rw [hp] at h
      cases h
      exact .of_parent?_none hp
    | some parent =>
      simp only [hp] at h
      split at h
      · exact (ih h).of_ascend (by rw [ascend_one, hp])
      · cases h

/-- A walk of the topology from a node that has an end finds it. -/
theorem Describes.climb_eq_some (hw : g.Walk path current)
    (hfuel : g.ids.length < path.length + n) (hend : g.EndsAt current root) :
    t.climb n path current = some root := by
  induction n generalizing path current with
  | zero =>
    have := hw.length_le
    omega
  | succ n ih =>
    rw [Topology.climb, ← hg.parent?_eq]
    cases hp : g.parent? current with
    | none => rw [hend.eq_self hp]
    | some parent =>
      have hnew : parent ∉ path := hw.parent_not_mem hend hp
      have hhas : t.has parent = true := by
        rw [Topology.has_iff_mem_ids, ← hg.ids_eq]
        exact (hg.mem_ids_of_parent? hp).2
      have hnew' : path.contains parent = false := by simpa using hnew
      simp only [hhas, hnew', Bool.not_false, Bool.and_self, if_true]
      exact ih (hw.step hg.toSound hp hnew) (by simp only [List.length_cons]; omega)
        (hend.above hp)

/-- The topmost node above a declared node is the end of its ascent. -/
theorem Describes.topmost?_eq_some_iff (hx : x ∈ t.ids) :
    t.topmost? x = some root ↔ g.EndsAt x root := by
  rw [Topology.topmost?, if_pos ((t.has_iff_mem_ids x).2 hx)]
  constructor
  · exact hg.endsAt_of_climb
  · have hlength : t.nodes.length = g.ids.length := by rw [hg.ids_eq, Topology.ids, List.length_map]
    rw [← hg.ids_eq] at hx
    exact hg.climb_eq_some (.start hx) (by simp [hlength])

/-- The graph finds a root for a declared node when the topology finds a topmost node. -/
theorem Describes.root_eq_ok_iff_topmost? (hx : x ∈ t.ids) :
    (g.root x).1 = .ok root ↔ t.topmost? x = some root := by
  rw [hg.topmost?_eq_some_iff hx]
  exact hg.toSound.root_eq_ok_iff (hg.ids_eq ▸ hx)

theorem Describes.topmost?_eq_none {f : Failure} (hx : x ∈ t.ids)
    (h : (g.root x).1 = .error f) : t.topmost? x = none := by
  refine Option.eq_none_iff_forall_ne_some.2 fun root hroot => ?_
  rw [(hg.root_eq_ok_iff_topmost? hx).2 hroot] at h
  cases h

end

end Containment

end DeployPlan
