import DeployPlan.Proofs.Plan.Decoration
import DeployPlan.Proofs.Tree.Update
import Mathlib.Data.List.Nodup
import Mathlib.Logic.Function.Iterate

/-!
# What groups make of a plan

In a plan that groups have decorated, each node has the locations of the last location policy that
lists it, and after its own behaviours those of all policies that list it. Nothing else of the plan
changes.
-/
namespace DeployPlan

namespace Policy

/-- The locations that a policy gives. -/
def locations? (policy : Policy) : Option (List Json) :=
  if policy.kind = .location then some (locationValues policy.data) else none

end Policy

/-- The locations that a policy of a group gives a node. -/
def locationsFor (id : String) (d : Group × Policy) : Option (List Json) :=
  if id ∈ d.1.members then d.2.locations? else none

/-- The behaviours that a policy of a group attaches to a node: one for each time that the group
lists the node. -/
def behaviorsFor (r : Registry) (id : String) (d : Group × Policy) : List Behavior :=
  (d.2.behavior? r).toList.flatMap fun b => List.replicate (d.1.members.count id) b

/-- The behaviour that a policy of a group without members attaches to the plan. -/
def looseBehavior? (r : Registry) (d : Group × Policy) : Option Behavior :=
  if d.1.members = [] then d.2.behavior? r else none

namespace Plan

def mapNodes (e : NodePlan → NodePlan) (p : Plan) : Plan :=
  { p with roots := p.roots.map (Tree.map e) }

section

variable {f : NodePlan → NodePlan} {p : Plan}

theorem ids_mapNodes {e : NodePlan → NodePlan} (he : ∀ n, (e n).id = n.id) :
    (p.mapNodes e).ids = p.ids := by
  rw [ids, mapNodes, Tree.labelsOf_map, List.map_map, ids]
  exact List.map_congr_left fun n _ => he n

theorem mapNodes_mapNodes (e e' : NodePlan → NodePlan) :
    (p.mapNodes e).mapNodes e' = p.mapNodes (e' ∘ e) := by
  simp only [mapNodes, List.map_map]
  congr 2
  funext t
  exact Tree.map_map e' e t

/-- In a plan of distinct ids changing the node of an id changes all nodes of that id. -/
theorem updateNode_eq (hids : p.ids.Nodup) (f : NodePlan → NodePlan) (id : String) :
    p.updateNode f id = p.mapNodes (Tree.relabel (hasId id) f) := by
  have honce : (Tree.labelsOf p.roots).countP (hasId id) ≤ 1 := by
    have hcount : p.ids.count id ≤ 1 := List.nodup_iff_count_le_one.1 hids id
    rw [ids, List.count, List.countP_map] at hcount
    exact hcount
  have hroots := Tree.getD_updateIn? (f := f) honce
  rw [Tree.mapAll_eq_map] at hroots
  rw [updateNode, update, update?, mapNodes, ← hroots]
  cases Tree.updateIn? (hasId id) (Tree.mapLabel f) p.roots <;> rfl

/-- Changing the nodes of some ids in turn changes each node as often as its id is listed. -/
theorem updateNodes_eq (hids : p.ids.Nodup) (hf : ∀ n, (f n).id = n.id) (members : List String) :
    p.updateNodes members f = p.mapNodes fun n => f^[members.count n.id] n := by
  unfold updateNodes
  induction members generalizing p with
  | nil =>
    have hid : Tree.map (fun n : NodePlan => f^[[].count n.id] n) = id := by
      funext t
      exact Tree.map_id t
    rw [List.foldl_nil, mapNodes, hid, List.map_id]
  | cons id members ih =>
    have hstep : ∀ n, (Tree.relabel (hasId id) f n).id = n.id := by
      intro n
      unfold Tree.relabel
      split
      · exact hf n
      · rfl
    have hids' : (p.mapNodes (Tree.relabel (hasId id) f)).ids.Nodup := by rwa [ids_mapNodes hstep]
    rw [List.foldl_cons, updateNode_eq hids, ih hids', mapNodes_mapNodes]
    congr 1
    funext n
    rw [Function.comp_apply, hstep, Tree.relabel]
    by_cases hn : n.id = id
    · rw [hn, List.count_cons_self, Function.iterate_succ_apply, if_pos (by simp [hasId, hn])]
    · rw [List.count_cons_of_ne (Ne.symm hn), if_neg (by simp [hasId, hn])]

end

end Plan

namespace NodePlan

/-- A node plan as the policies of groups leave it. -/
def decorated (r : Registry) (ds : List (Group × Policy)) (n : NodePlan) : NodePlan :=
  { n with
    locations := (ds.filterMap (locationsFor n.id)).getLast?.getD n.locations
    behaviors := n.behaviors ++ ds.flatMap (behaviorsFor r n.id) }

theorem decorated_nil (r : Registry) (n : NodePlan) : n.decorated r [] = n := by
  simp [decorated]

theorem decorated_cons (r : Registry) (d : Group × Policy) (ds : List (Group × Policy))
    (n : NodePlan) : n.decorated r (d :: ds) = (n.decorated r [d]).decorated r ds := by
  unfold decorated
  cases hlocations : locationsFor n.id d with
  | none => simp [hlocations]
  | some l => simp [hlocations, List.getLast?_cons]

end NodePlan

namespace Plan

section

variable {r : Registry} {p : Plan} {d : Group × Policy}

theorem mapNodes_eq_self {e : NodePlan → NodePlan} (he : ∀ n, e n = n) : p.mapNodes e = p := by
  obtain rfl : e = id := funext he
  have hid : Tree.map (id : NodePlan → NodePlan) = id := funext Tree.map_id
  rw [mapNodes, hid, List.map_id]

/-- Setting the locations of a node again changes nothing. -/
theorem setLocations_eq (hids : p.ids.Nodup) (members : List String) (l : List Json) :
    p.setLocations members l =
      p.mapNodes fun n => if n.id ∈ members then { n with locations := l } else n := by
  have hagain (k : Nat) (n : NodePlan) : (fun n : NodePlan => { n with locations := l })^[k + 1] n =
      { n with locations := l } := by
    induction k generalizing n with
    | zero => rfl
    | succ k ih => rw [Function.iterate_succ_apply, ih]
  refine (updateNodes_eq hids ?_ members).trans ?_
  · exact fun _ => rfl
  · congr 1
    funext n
    by_cases hmem : n.id ∈ members
    · obtain ⟨k, hk⟩ := Nat.exists_eq_add_of_lt (List.count_pos_iff.2 hmem)
      rw [hk, Nat.zero_add, hagain, if_pos hmem]
    · rw [List.count_eq_zero.2 hmem, if_neg hmem]
      rfl

/-- Each time that a node is listed attaches the behaviour again. -/
theorem attach_eq (hids : p.ids.Nodup) {members : List String} (hmembers : members ≠ [])
    (b : Behavior) : p.attach members b =
      p.mapNodes fun n =>
        { n with behaviors := n.behaviors ++ List.replicate (members.count n.id) b } := by
  have hagain (k : Nat) (n : NodePlan) :
      (fun n : NodePlan => { n with behaviors := n.behaviors ++ [b] })^[k] n =
        { n with behaviors := n.behaviors ++ List.replicate k b } := by
    induction k generalizing n with
    | zero => simp
    | succ k ih =>
      rw [Function.iterate_succ_apply, ih]
      simp only [List.append_assoc, List.singleton_append, List.replicate_succ]
  rw [attach, if_neg (by simpa using hmembers)]
  refine (updateNodes_eq hids ?_ members).trans ?_
  · exact fun _ => rfl
  · congr 1
    funext n
    exact hagain _ n

/-- A plan as the policies of groups leave it. -/
def decorated (r : Registry) (ds : List (Group × Policy)) (p : Plan) : Plan :=
  { p.mapNodes (NodePlan.decorated r ds) with
    behaviors := p.behaviors ++ ds.filterMap (looseBehavior? r) }

theorem decorated_nil (r : Registry) (p : Plan) : p.decorated r [] = p := by
  rw [decorated, mapNodes_eq_self (NodePlan.decorated_nil r), List.filterMap_nil, List.append_nil]

theorem decorated_cons (r : Registry) (d : Group × Policy) (ds : List (Group × Policy))
    (p : Plan) : p.decorated r (d :: ds) = (p.decorated r [d]).decorated r ds := by
  have hnodes : NodePlan.decorated r (d :: ds) =
      NodePlan.decorated r ds ∘ NodePlan.decorated r [d] :=
    funext fun n => n.decorated_cons r d ds
  have hloose : (d :: ds).filterMap (looseBehavior? r) =
      [d].filterMap (looseBehavior? r) ++ ds.filterMap (looseBehavior? r) := by
    rw [← List.filterMap_append, List.singleton_append]
  simp only [decorated, hnodes, hloose, ← mapNodes_mapNodes, List.append_assoc]
  rfl

/-- What one policy makes of a plan of distinct ids. -/
theorem withPolicy_eq (hids : p.ids.Nodup) (r : Registry) (d : Group × Policy) :
    p.withPolicy r d = p.decorated r [d] := by
  unfold withPolicy
  cases hkind : d.2.kind with
  | location =>
    have hbehavior : d.2.behavior? r = none := by simp [Policy.behavior?, hkind]
    have hlocations : d.2.locations? = some (locationValues d.2.data) := if_pos hkind
    have hnode (n : NodePlan) : n.decorated r [d] = if n.id ∈ d.1.members then
        { n with locations := locationValues d.2.data } else n := by
      by_cases hmem : n.id ∈ d.1.members <;>
        simp [NodePlan.decorated, locationsFor, behaviorsFor, hmem, hbehavior, hlocations]
    rw [setLocations_eq hids, decorated, ← funext hnode]
    simp [mapNodes, looseBehavior?, hbehavior]
  | behavior =>
    have hlocations : d.2.locations? = none := by simp [Policy.locations?, hkind]
    cases hb : d.2.behavior? r with
    | none =>
      have hnode (n : NodePlan) : n.decorated r [d] = n := by
        simp [NodePlan.decorated, locationsFor, behaviorsFor, hlocations, hb]
      rw [decorated, mapNodes_eq_self hnode]
      simp [looseBehavior?, hb]
    | some b =>
      have hnode (n : NodePlan) : n.decorated r [d] =
          { n with behaviors := n.behaviors ++ List.replicate (d.1.members.count n.id) b } := by
        simp [NodePlan.decorated, locationsFor, behaviorsFor, hlocations, hb]
      rw [Option.elim_some]
      by_cases hmembers : d.1.members = []
      · have hnone (n : NodePlan) : n.decorated r [d] = n := by simp [hnode, hmembers]
        rw [decorated, mapNodes_eq_self hnone]
        simp [attach, looseBehavior?, hmembers, hb]
      · rw [attach_eq hids hmembers, decorated, ← funext hnode]
        simp [mapNodes, looseBehavior?, hmembers]

theorem foldl_withPolicy_eq (hids : p.ids.Nodup) (r : Registry) (ds : List (Group × Policy)) :
    ds.foldl (withPolicy r) p = p.decorated r ds := by
  induction ds generalizing p with
  | nil => rw [List.foldl_nil, decorated_nil]
  | cons d ds ih =>
    have hsame : (p.withPolicy r d).ids = p.ids := ids_foldl_withPolicy r p [d]
    have hids' : (p.withPolicy r d).ids.Nodup := by rwa [hsame]
    rw [List.foldl_cons, ih hids', withPolicy_eq hids, ← decorated_cons]

/-- Groups decorate a plan of distinct ids unless one of them has a fault; the fault reported is
that of the first such group, and a member that is not in the plan is reported before a behaviour
without a type. Otherwise each node has the locations of the last location policy of a group that
lists it, and after its behaviours one for each time that a group with a behaviour lists it; the
plan gets the behaviours of groups without members, and all else stays. -/
theorem decorate_by_groups (hids : p.ids.Nodup) (r : Registry) (groups : List Group) (log : Log) :
    (∀ f, (Plan.decorate r groups p log).1 = .error f ↔
      groups.findSome? (Group.fault? p.ids) = some f) ∧
    ((∃ f, (Plan.decorate r groups p log).1 = .error f) ↔
      ∃ g ∈ groups, (∃ id ∈ g.members, id ∉ p.ids) ∨
        ∃ policy ∈ g.policies, policy.kind = .behavior ∧
          ∀ name, policy.behaviorType = some name → Text.isBlank name = true) ∧
    ∀ p', (Plan.decorate r groups p log).1 = .ok p' →
      p'.name = p.name ∧
      p'.behaviors = p.behaviors ++ (policiesOf groups).filterMap (looseBehavior? r) ∧
      p'.roots = p.roots.map (Tree.map fun n => { n with
        locations := ((policiesOf groups).filterMap (locationsFor n.id)).getLast?.getD n.locations
        behaviors := n.behaviors ++ (policiesOf groups).flatMap (behaviorsFor r n.id) }) := by
  refine ⟨fun f => decorate_eq_error_iff, ?_, fun p' hp' => ?_⟩
  · simp only [decorate_eq_error_iff, ← Group.isSome_fault?_iff, ← Option.isSome_iff_exists,
      List.findSome?_isSome_iff]
  · obtain ⟨-, hdecorated⟩ := decorate_eq_ok_iff.1 hp'
    rw [foldl_withPolicy_eq hids] at hdecorated
    cases hdecorated
    exact ⟨rfl, rfl, rfl⟩

def rackedPlan : Plan :=
  ⟨"site", [.node (bare "vm") [.node (bare "app") [], .node (bare "db") []]], []⟩
where
  /-- A node plan with nothing but an id. -/
  bare (id : String) : NodePlan := { NodePlan.start .applicationRoot .empty with id := id }

/-- A group that lists a node twice, one that moves it to two racks, and one without members. -/
def rackGroups : List Group :=
  [⟨"site", ["app", "vm", "app"], [⟨"east", .location, none, [("value", .str "east")]⟩,
      ⟨"watch", .behavior, some "Watch", []⟩]⟩,
    ⟨"racks", ["app"], [⟨"rack", .location, none, [("value", .arr [.str "r1", .str "r2"])]⟩]⟩,
    ⟨"all", [], [⟨"audit", .behavior, some "Audit", []⟩]⟩]

/-- A group whose member is nowhere, and whose behaviour has no type. -/
def lostGroup : Group := ⟨"lost", ["app", "nobody"], [⟨"none", .behavior, some " ", []⟩]⟩

/-- The node that is listed twice is watched twice and stands in the racks; with the lost group its
member is reported. -/
theorem decorate_rackedPlan : rackedPlan.ids.Nodup ∧
    (∃ p', (Plan.decorate .empty rackGroups rackedPlan (.start .error false)).1 = .ok p' ∧
      p'.behaviors.map (·.name) = ["audit"] ∧
      (Tree.labelsOf p'.roots).map (fun n => (n.id, n.locations, n.behaviors.map (·.name))) =
        [("vm", [.str "east"], ["watch"]), ("app", [.str "r1", .str "r2"], ["watch", "watch"]),
          ("db", [], [])]) ∧
    (Plan.decorate .empty (rackGroups ++ [lostGroup]) rackedPlan (.start .error false)).1 =
      .error (.compile (.unknownGroupMember "lost" "nobody")) := by
  have hids : rackedPlan.ids.Nodup := by decide +kernel
  refine ⟨hids, ?_, ?_⟩
  · have hok : (Plan.decorate .empty rackGroups rackedPlan
        (.start .error false)).1.isOk = true := by
      decide +kernel
    generalize hx : (Plan.decorate .empty rackGroups rackedPlan (.start .error false)).1 = x at hok
    cases x with
    | error f => cases hok
    | ok p' =>
      obtain ⟨-, -, hdecorated⟩ := decorate_by_groups hids .empty rackGroups (.start .error false)
      obtain ⟨-, hbehaviors, hroots⟩ := hdecorated p' hx
      refine ⟨p', rfl, ?_, ?_⟩
      · rw [hbehaviors]
        decide +kernel
      · rw [hroots]
        decide +kernel
  · obtain ⟨herror, -, -⟩ :=
      decorate_by_groups hids .empty (rackGroups ++ [lostGroup]) (.start .error false)
    exact (herror _).2 (by decide +kernel)

end

end Plan

end DeployPlan
