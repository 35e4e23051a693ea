import DeployPlan.Proofs.Compiler.History
import DeployPlan.Proofs.Plan.Faults

/-!
# The order of the roots

The trees of a plan stand in the order in which their first nodes are declared. That is the order in
which the roots are declared when every node is declared after the one it is placed on; a guest that
is declared early moves its root to the front.
-/
namespace DeployPlan

section

variable {α : Type}

theorem findIdx_concat_of_mem {p : α → Bool} {xs : List α} (h : ∃ x ∈ xs, p x = true) (x : α) :
    (xs ++ [x]).findIdx p = xs.findIdx p := by
  rw [List.findIdx_append, if_pos (List.findIdx_lt_length.2 h)]

theorem findIdx_concat_self {p : α → Bool} {xs : List α} {x : α} (h : ∀ y ∈ xs, p y = false)
    (hx : p x = true) : (xs ++ [x]).findIdx p = xs.length := by
  rw [List.findIdx_append, List.findIdx_eq_length_of_false h, if_neg (Nat.lt_irrefl _),
    List.findIdx_cons, hx, cond_true, Nat.zero_add]

/-- The names that items have, each once, stand in the order of the first items that have them. -/
theorem pairwise_findIdx_eraseDups (f : α → Option String) (xs : List α) :
    (xs.filterMap f).eraseDups.Pairwise fun a b =>
      xs.findIdx (f · = some a) < xs.findIdx (f · = some b) := by
  induction xs using List.reverseRecOn with
  | nil => exact .nil
  | append_singleton xs x ih =>
    have hmet {a : String} (ha : a ∈ (xs.filterMap f).eraseDups) :
        ∃ y ∈ xs, decide (f y = some a) = true := by
      simpa using ha
    have hold : (xs.filterMap f).eraseDups.Pairwise fun a b =>
        (xs ++ [x]).findIdx (f · = some a) < (xs ++ [x]).findIdx (f · = some b) := by
      refine ih.imp_of_mem fun {a b} ha hb hab => ?_
      rwa [findIdx_concat_of_mem (hmet ha), findIdx_concat_of_mem (hmet hb)]
    rw [List.filterMap_append]
    cases hx : f x with
    | none => simpa [hx] using hold
    | some name =>
      rw [List.filterMap_cons_some hx, List.filterMap_nil, eraseDups_concat, addName]
      split
      · exact hold
      · next hnew =>
        refine List.pairwise_append.2 ⟨hold, List.pairwise_singleton _ _, fun a ha b hb => ?_⟩
        cases List.mem_singleton.1 hb
        have hnone : ∀ y ∈ xs, decide (f y = some name) = false := by
          simpa using hnew
        rw [findIdx_concat_of_mem (hmet ha), findIdx_concat_self hnone (by simpa using hx)]
        exact List.findIdx_lt_length.2 (hmet ha)

/-- In a list that is sorted by numbers, items stand in the order of their numbers. -/
theorem idxOf_lt_idxOf_iff {f : String → Nat} {xs : List String} (h : xs.Pairwise (f · < f ·))
    {a b : String} (ha : a ∈ xs) (hb : b ∈ xs) : xs.idxOf a < xs.idxOf b ↔ f a < f b := by
  have hlt {a b : String} (ha : a ∈ xs) (hb : b ∈ xs) (hab : xs.idxOf a < xs.idxOf b) :
      f a < f b := by
    have hlength := List.idxOf_lt_length_of_mem hb
    have hpair := List.pairwise_iff_getElem.1 h _ _ (List.idxOf_lt_length_of_mem ha) hlength hab
    rwa [List.getElem_idxOf, List.getElem_idxOf] at hpair
  refine ⟨hlt ha hb, fun hab => ?_⟩
  rcases Nat.lt_trichotomy (xs.idxOf a) (xs.idxOf b) with hidx | hidx | hidx
  · exact hidx
  · rw [List.idxOf_inj ha |>.1 hidx] at hab
    exact absurd hab (Nat.lt_irrefl _)
  · exact absurd (hlt hb ha hidx) (Nat.lt_asymm hab)

end

def Plan.rootIds (p : Plan) : List String := p.roots.map (·.label.id)

/-- The roots of a plan stand in the order in which a topology declares them. -/
def Plan.RootsInOrder (p : Plan) (t : Topology) : Prop :=
  ∀ r ∈ p.rootIds, ∀ r' ∈ p.rootIds,
    t.ids.idxOf r < t.ids.idxOf r' → p.rootIds.idxOf r < p.rootIds.idxOf r'

namespace Topology

/-- The place of the first declared node that has a root on top. -/
def firstBelow (t : Topology) (root : String) : Nat := t.ids.findIdx (t.topmost? · = some root)

/-- Every node is declared after the one it is placed on. -/
def HostsFirst (t : Topology) : Prop :=
  ∀ n ∈ t.nodes, ∀ parent ∈ n.hostParent?, t.ids.idxOf parent < t.ids.idxOf n.id

theorem HostsFirst.idxOf_lt {t : Topology} {id parent : String} (h : t.HostsFirst)
    (hparent : t.parent? id = some parent) : t.ids.idxOf parent < t.ids.idxOf id := by
  have hplaced : (id, parent) ∈ t.containment.placements :=
    Containment.mem_placements_of_parent? hparent
  obtain ⟨n, hn, rfl, hhost⟩ := mem_placements_iff.1 hplaced
  exact h n hn parent hhost

end Topology

namespace Containment

variable {g : Containment} {t : Topology} {id root : String}

/-- With hosts first a root is declared before all that end there. -/
theorem Describes.idxOf_le_of_endsAt (hg : g.Describes t) (h : t.HostsFirst)
    (hend : g.EndsAt id root) : t.ids.idxOf root ≤ t.ids.idxOf id := by
  obtain ⟨⟨k, hk⟩, -⟩ := hend
  induction k generalizing id with
  | zero =>
    cases hk
    exact Nat.le_refl _
  | succ k ih =>
    rw [ascend_succ] at hk
    obtain ⟨parent, hparent, hk⟩ := Option.bind_eq_some_iff.1 hk
    rw [hg.parent?_eq] at hparent
    exact (ih hk).trans (h.idxOf_lt hparent).le

/-- With hosts first the first node below a root is the root. -/
theorem Describes.firstBelow_eq (hg : g.Describes t) (h : t.HostsFirst)
    (hroot : root ∈ t.ids) (hnone : t.parent? root = none) :
    t.firstBelow root = t.ids.idxOf root := by
  have hlength := List.idxOf_lt_length_of_mem hroot
  refine (List.findIdx_eq hlength).2 ⟨?_, fun j hj => ?_⟩
  · rw [List.getElem_idxOf, decide_eq_true_eq, hg.topmost?_eq_some_iff hroot]
    exact .of_parent?_none (by rw [hg.parent?_eq, hnone])
  · have hmem : t.ids[j] ∈ t.ids := List.getElem_mem _
    rw [decide_eq_false_iff_not, hg.topmost?_eq_some_iff hmem]
    intro hend
    have hle := hg.idxOf_le_of_endsAt h hend
    have hfirst : t.ids.idxOf t.ids[j] ≤ j := by
      by_contra hlt
      simpa using List.not_of_lt_findIdx (Nat.not_le.1 hlt)
    omega

end Containment

namespace Compiler

/-- A plan that is answered after any compilations before has the topmost nodes as its roots, each
once, in the order in which they are met: one root is before another when the first node below it,
or itself, is declared before the first one of the other. So the roots stand in the order of their
own declarations exactly when their first nodes do, as they do in a topology that declares every
node after the one it is placed on. -/
theorem rootIds_in_order_met {t : Topology} {s : Settings} {env : Surroundings} {p : Plan}
    {envs : List Surroundings}
    (h : (((start t s).after envs).compile env).1 = .ok p) :
    p.rootIds = (t.ids.filterMap t.topmost?).eraseDups ∧
    (∀ r ∈ p.rootIds, ∀ r' ∈ p.rootIds,
      p.rootIds.idxOf r < p.rootIds.idxOf r' ↔ t.firstBelow r < t.firstBelow r') ∧
    (p.RootsInOrder t ↔ ∀ r ∈ p.rootIds, ∀ r' ∈ p.rootIds,
      t.ids.idxOf r < t.ids.idxOf r' → t.firstBelow r < t.firstBelow r') ∧
    (t.HostsFirst → p.RootsInOrder t) := by
  obtain ⟨env', log, hone⟩ := (((reached_start t s).after envs).compile env).2 p h
  obtain ⟨job, q, q', rfl, hplan⟩ := plan_of_compileOnce hone
  obtain ⟨hg, -, -⟩ := Build.plan_ok hplan
  have hroots : p.rootIds = job.scene.topology.rootIds := Build.rootIds_of_plan hplan
  have horder : ∀ r ∈ p.rootIds, ∀ r' ∈ p.rootIds,
      p.rootIds.idxOf r < p.rootIds.idxOf r' ↔
        job.scene.topology.firstBelow r < job.scene.topology.firstBelow r' := by
    intro r hr r' hr'
    refine idxOf_lt_idxOf_iff ?_ hr hr'
    rw [hroots, Topology.rootIds]
    exact pairwise_findIdx_eraseDups _ _
  have hiff : p.RootsInOrder job.scene.topology ↔ ∀ r ∈ p.rootIds, ∀ r' ∈ p.rootIds,
      job.scene.topology.ids.idxOf r < job.scene.topology.ids.idxOf r' →
        job.scene.topology.firstBelow r < job.scene.topology.firstBelow r' := by
    constructor
    · exact fun hin r hr r' hr' hlt => (horder r hr r' hr').1 (hin r hr r' hr' hlt)
    · exact fun hin r hr r' hr' hlt => (horder r hr r' hr').2 (hin r hr r' hr' hlt)
  refine ⟨hroots, horder, hiff, fun hfirst => hiff.2 fun r hr r' hr' hlt => ?_⟩
  have hbelow {root : String} (hroot : root ∈ p.rootIds) :
      job.scene.topology.firstBelow root = job.scene.topology.ids.idxOf root := by
    rw [hroots, Topology.mem_rootIds_iff hg] at hroot
    exact hg.firstBelow_eq hfirst hroot.1 hroot.2
  rwa [hbelow hr, hbelow hr']

def machine (id : String) : NodeTemplate := ⟨id, "Machine", none, none, ∅, [], [], [], []⟩

def appOnSecond : NodeTemplate where
  id := "app"
  nodeType := "App"
  typeVersion := none
  name := none
  properties := ∅
  requirements := ["host"]
  relationships := [⟨"app_host", "host", "second", hostedOn, ∅, []⟩]
  interfaces := []
  artifacts := []

/-- Two machines before the application on the second one. -/
def guestLast : Topology :=
  ⟨"site", [machine "first", machine "second", appOnSecond], [], [], none⟩

/-- Two machines after the application on the second one. -/
def guestFirst : Topology :=
  ⟨"site", [appOnSecond, machine "first", machine "second"], [], [], none⟩

/-- With the application last the machines stand in the order of their declarations. -/
theorem rootsInOrder_guestLast : guestLast.HostsFirst ∧
    ∃ p, (((start guestLast (.initial ⟨none, none⟩)).after []).compile bareSurroundings).1 = .ok p ∧
      p.RootsInOrder guestLast := by
  have hfirst : guestLast.HostsFirst := by
    rw [Topology.HostsFirst]
    decide +kernel
  refine ⟨hfirst, ?_⟩
  have hok : (((start guestLast (.initial ⟨none, none⟩)).after []).compile
      bareSurroundings).1.toOption.isSome = true := by
    decide +kernel
  obtain ⟨p, hp⟩ := Option.isSome_iff_exists.1 hok
  have hplan := eq_ok_of_toOption hp
  exact ⟨p, hplan, (rootIds_in_order_met hplan).2.2.2 hfirst⟩

/-- With the application first its machine comes first, though it is declared second. -/
theorem not_rootsInOrder_guestFirst : guestFirst.ids.Nodup ∧
    ∃ p, ((start guestFirst (.initial ⟨none, none⟩)).compile bareSurroundings).1 = .ok p ∧
      p.rootIds = ["second", "first"] ∧ ¬ p.RootsInOrder guestFirst := by
  refine ⟨by decide, ?_⟩
  have hroots : ((start guestFirst (.initial ⟨none, none⟩)).compile
      bareSurroundings).1.toOption.map Plan.rootIds = some ["second", "first"] := by
    decide +kernel
  obtain ⟨p, hp, hids⟩ := Option.map_eq_some_iff.1 hroots
  refine ⟨p, eq_ok_of_toOption hp, hids, fun hin => ?_⟩
  rw [Plan.RootsInOrder, hids] at hin
  exact absurd hin (by decide +kernel)

end Compiler

end DeployPlan
