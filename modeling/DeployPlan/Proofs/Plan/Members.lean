import DeployPlan.Proofs.Plan.Groups

/-!
# How the members of a group count

Which nodes a group lists decides whether it decorates a plan and where it places nodes; how often
it lists them decides how often its behaviours are attached. So two lists of the same members
decorate a plan alike exactly when the group has no behaviour, or each node is as often on one list
as on the other.
-/
namespace DeployPlan

/-- How often the items of a list are repeated can be told, unless there is none. -/
theorem flatMap_replicate_inj {α : Type} {items : List α} {k l : Nat} :
    items.flatMap (List.replicate k) = items.flatMap (List.replicate l) ↔ items = [] ∨ k = l := by
  constructor
  · intro h
    have hlength : items.length * k = items.length * l := by
      simpa [List.length_flatMap] using congrArg List.length h
    rw [or_iff_not_imp_left]
    exact fun hitems => Nat.eq_of_mul_eq_mul_left (List.length_pos_iff.2 hitems) hlength
  · rintro (rfl | rfl) <;> rfl

/-- Changes of nodes are told apart by what they make of the nodes that are there. -/
theorem Plan.mapNodes_eq_iff {p : Plan} {e e' : NodePlan → NodePlan} :
    p.mapNodes e = p.mapNodes e' ↔ ∀ n ∈ Tree.labelsOf p.roots, e n = e' n := by
  constructor
  · intro h
    have hlabels := congrArg (fun q => Tree.labelsOf q.roots) h
    simp only [mapNodes, Tree.labelsOf_map] at hlabels
    exact List.map_inj_left.1 hlabels
  · intro h
    have hroots := Tree.mapAll_congr p.roots h
    simp only [Tree.mapAll_eq_map] at hroots
    rw [mapNodes, mapNodes, hroots]

namespace Group

def withMembers (g : Group) (members : List String) : Group := { g with members := members }

/-- The behaviours that a group attaches, in order. -/
def behaviorsOf (r : Registry) (g : Group) : List Behavior := g.policies.filterMap (·.behavior? r)

variable {g : Group} {members : List String} {ids : List String} {r : Registry}

/-- A group attaches all of its behaviours to a node as often as it lists the node. -/
theorem flatMap_behaviorsFor (g : Group) (r : Registry) (id : String) :
    (g.policies.map (Prod.mk g)).flatMap (behaviorsFor r id) =
      (g.behaviorsOf r).flatMap (List.replicate (g.members.count id)) := by
  rw [behaviorsOf, List.flatMap_map]
  induction g.policies with
  | nil => rfl
  | cons policy policies ih =>
    rw [List.flatMap_cons, ih, behaviorsFor, List.filterMap_cons]
    cases policy.behavior? r with
    | none => rfl
    | some b => simp

/-- Lists of the same members are both without fault, or both have one. -/
theorem fault?_withMembers (hsame : ∀ id, id ∈ members ↔ id ∈ g.members) :
    (g.withMembers members).fault? ids = none ↔ g.fault? ids = none := by
  rw [← Option.not_isSome_iff_eq_none, ← Option.not_isSome_iff_eq_none, isSome_fault?_iff,
    isSome_fault?_iff, not_iff_not]
  simp only [withMembers, hsame]

theorem mem_of_fault?_eq_none (h : g.fault? ids = none) {id : String} (hid : id ∈ g.members) :
    id ∈ ids := by
  rw [← Option.not_isSome_iff_eq_none, isSome_fault?_iff, not_or] at h
  exact Decidable.byContradiction fun hstray => h.1 ⟨id, hid, hstray⟩

/-- A group without fault attaches nothing when all of its policies are for places. -/
theorem behaviorsOf_eq_nil_iff (h : g.fault? ids = none) :
    g.behaviorsOf r = [] ↔ ∀ policy ∈ g.policies, policy.kind = .location := by
  have htyped : ∀ policy ∈ g.policies, policy.isUntyped = false := by
    rw [fault?, Option.or_eq_none_iff, Option.map_eq_none_iff, Option.map_eq_none_iff] at h
    simpa [List.find?_eq_none] using h.2
  rw [behaviorsOf, List.filterMap_eq_nil_iff]
  refine forall₂_congr fun policy hpolicy => ?_
  have huntyped := htyped policy hpolicy
  rw [Policy.behavior?]
  cases hkind : policy.kind with
  | location => simp
  | behavior =>
    cases htype : policy.behaviorType with
    | none => simp [Policy.isUntyped, hkind, htype] at huntyped
    | some name => simp

end Group

section

variable {g : Group} {members : List String} {r : Registry}

/-- What all policies of groups say is the same when one group says the same with other members. -/
theorem filterMap_policiesOf_withMembers {γ : Type} {said : Group × Policy → Option γ}
    (h : ∀ policy, said (g.withMembers members, policy) = said (g, policy))
    (before after : List Group) :
    (policiesOf (before ++ g.withMembers members :: after)).filterMap said =
      (policiesOf (before ++ g :: after)).filterMap said := by
  have hgroup : ((g.withMembers members).policies.map (Prod.mk (g.withMembers members))).filterMap
      said = (g.policies.map (Prod.mk g)).filterMap said := by
    rw [List.filterMap_map, List.filterMap_map]
    exact List.filterMap_congr fun policy _ => h policy
  simp only [policiesOf, List.flatMap_append, List.flatMap_cons, List.filterMap_append, hgroup]

/-- Where a group places a node depends on whether it lists it. -/
theorem filterMap_locationsFor_withMembers (hsame : ∀ id, id ∈ members ↔ id ∈ g.members)
    (before after : List Group) (id : String) :
    (policiesOf (before ++ g.withMembers members :: after)).filterMap (locationsFor id) =
      (policiesOf (before ++ g :: after)).filterMap (locationsFor id) := by
  refine filterMap_policiesOf_withMembers (fun policy => ?_) before after
  rw [locationsFor, locationsFor]
  exact if_congr (hsame id) rfl rfl

/-- Whether a group attaches its behaviours to the plan depends on whether it lists any node. -/
theorem filterMap_looseBehavior?_withMembers (hsame : ∀ id, id ∈ members ↔ id ∈ g.members)
    (before after : List Group) :
    (policiesOf (before ++ g.withMembers members :: after)).filterMap (looseBehavior? r) =
      (policiesOf (before ++ g :: after)).filterMap (looseBehavior? r) := by
  have hempty : members = [] ↔ g.members = [] := by
    simp only [List.eq_nil_iff_forall_not_mem, hsame]
  refine filterMap_policiesOf_withMembers (fun policy => ?_) before after
  rw [looseBehavior?, looseBehavior?]
  exact if_congr hempty rfl rfl

/-- A node is decorated alike when the group attaches nothing or lists it as often. -/
theorem NodePlan.decorated_withMembers_iff (hsame : ∀ id, id ∈ members ↔ id ∈ g.members)
    (before after : List Group) (n : NodePlan) :
    n.decorated r (policiesOf (before ++ g.withMembers members :: after)) =
        n.decorated r (policiesOf (before ++ g :: after)) ↔
      g.behaviorsOf r = [] ∨ members.count n.id = g.members.count n.id := by
  rw [decorated, decorated, filterMap_locationsFor_withMembers hsame, NodePlan.mk.injEq]
  simp only [true_and, and_true, List.append_cancel_left_eq, policiesOf, List.flatMap_append,
    List.flatMap_cons, List.append_cancel_right_eq]
  rw [Group.flatMap_behaviorsFor, Group.flatMap_behaviorsFor]
  exact flatMap_replicate_inj

end

namespace Plan

section

variable {p q q' : Plan} {g : Group} {members : List String} {r : Registry} {groups : List Group}
  {log : Log}

/-- Groups decorate a plan of distinct ids when none has a fault. -/
theorem decorate_eq_ok_decorated (hids : p.ids.Nodup) :
    (Plan.decorate r groups p log).1 = .ok q ↔
      (∀ g ∈ groups, g.fault? p.ids = none) ∧ p.decorated r (policiesOf groups) = q := by
  rw [decorate_eq_ok_iff, List.findSome?_eq_none_iff, foldl_withPolicy_eq hids]

theorem told_mapNodes {γ : Type} (h : NodePlan → γ) (e : NodePlan → NodePlan) :
    (p.mapNodes e).told h = p.told (h ∘ e) := by
  simp only [told, mapNodes, List.map_map]
  congr 1
  funext t
  exact Tree.map_map h e t

/-- With other members a plan is decorated alike when each of its nodes is. -/
theorem decorated_withMembers_iff (hsame : ∀ id, id ∈ members ↔ id ∈ g.members)
    (before after : List Group) :
    p.decorated r (policiesOf (before ++ g.withMembers members :: after)) =
        p.decorated r (policiesOf (before ++ g :: after)) ↔
      ∀ n ∈ Tree.labelsOf p.roots,
        g.behaviorsOf r = [] ∨ members.count n.id = g.members.count n.id := by
  simp only [← NodePlan.decorated_withMembers_iff hsame before after]
  rw [← mapNodes_eq_iff]
  simp only [decorated, mapNodes, filterMap_looseBehavior?_withMembers hsame, Plan.mk.injEq,
    true_and, and_true]

/-- In a plan that has all members of a group, its nodes tell how often each member is listed. -/
theorem forall_count_iff_perm (hsame : ∀ id, id ∈ members ↔ id ∈ g.members)
    (hmembers : ∀ id ∈ g.members, id ∈ p.ids) :
    (∀ n ∈ Tree.labelsOf p.roots, members.count n.id = g.members.count n.id) ↔
      members.Perm g.members := by
  rw [List.perm_iff_count]
  constructor
  · intro h id
    by_cases hid : id ∈ g.members
    · obtain ⟨n, hn, rfl⟩ := List.mem_map.1 (hmembers id hid)
      exact h n hn
    · rw [List.count_eq_zero.2 hid, List.count_eq_zero]
      rwa [hsame]
  · exact fun h n _ => h n.id

/-- In a plan of distinct ids, replacing the members of a group by a list of the same members
changes neither whether groups decorate the plan nor anything of the result but behaviours of its
nodes. Those are attached once for each time that a group lists the node. So the result is the same
exactly when the group has policies for places only, or the new list is the old one in another
order. -/
theorem decorate_sameMembers_iff (hids : p.ids.Nodup)
    (hsame : ∀ id, id ∈ members ↔ id ∈ g.members) (r : Registry) (before after : List Group)
    (log : Log) :
    let result := (Plan.decorate r (before ++ g :: after) p log).1
    let other := (Plan.decorate r (before ++ g.withMembers members :: after) p log).1
    ((∃ q, other = .ok q) ↔ ∃ q, result = .ok q) ∧
    ∀ q q', result = .ok q → other = .ok q' →
      (q.told fun n => n.behaviors) = (p.told fun n => n.behaviors ++
        ((policiesOf before).flatMap (behaviorsFor r n.id) ++
          ((g.behaviorsOf r).flatMap (List.replicate (g.members.count n.id)) ++
            (policiesOf after).flatMap (behaviorsFor r n.id)))) ∧
      (q'.name = q.name ∧ q'.behaviors = q.behaviors ∧
        (q'.told fun n => { n with behaviors := [] }) =
          q.told fun n => { n with behaviors := [] }) ∧
      (q' = q ↔ (∀ policy ∈ g.policies, policy.kind = .location) ∨ members.Perm g.members) := by
  intro result other
  have hfaults : (∀ h ∈ before ++ g.withMembers members :: after, h.fault? p.ids = none) ↔
      ∀ h ∈ before ++ g :: after, h.fault? p.ids = none := by
    simp only [List.forall_mem_append, List.forall_mem_cons, Group.fault?_withMembers hsame]
  constructor
  · simp only [result, other, decorate_eq_ok_decorated hids, hfaults, exists_and_left, exists_eq']
  · intro q q' hq hq'
    obtain ⟨hnone, rfl⟩ := (decorate_eq_ok_decorated hids).1 hq
    obtain ⟨-, rfl⟩ := (decorate_eq_ok_decorated hids).1 hq'
    have hg : g.fault? p.ids = none := hnone g (by simp)
    refine ⟨?_, ⟨rfl, ?_, ?_⟩, ?_⟩
    · refine (told_mapNodes _ _).trans ?_
      simp only [Function.comp_def, NodePlan.decorated, policiesOf, List.flatMap_append,
        List.flatMap_cons, Group.flatMap_behaviorsFor]
    · simp only [decorated, filterMap_looseBehavior?_withMembers hsame]
    · refine (told_mapNodes _ _).trans (Eq.trans ?_ (told_mapNodes _ _).symm)
      simp only [Function.comp_def, NodePlan.decorated, filterMap_locationsFor_withMembers hsame]
    · have hmembers : ∀ id ∈ g.members, id ∈ p.ids := fun id => Group.mem_of_fault?_eq_none hg
      rw [decorated_withMembers_iff hsame, ← Group.behaviorsOf_eq_nil_iff (r := r) hg,
        ← forall_count_iff_perm hsame hmembers]
      by_cases hnil : g.behaviorsOf r = [] <;> simp [hnil]

/-- A group that watches a node and places it. -/
def watchGroup : Group :=
  ⟨"site", ["app", "vm"], [⟨"watch", .behavior, some "Watch", []⟩,
    ⟨"east", .location, none, [("value", .str "east")]⟩]⟩

/-- Listed in the other order, the nodes of the group are decorated alike. -/
theorem decorate_watchGroup :
    rackedPlan.ids.Nodup ∧ (∀ id, id ∈ ["vm", "app"] ↔ id ∈ watchGroup.members) ∧
    ∃ q, (Plan.decorate .empty [watchGroup] rackedPlan (.start .error false)).1 = .ok q ∧
      (Plan.decorate .empty [watchGroup.withMembers ["vm", "app"]] rackedPlan
        (.start .error false)).1 = .ok q := by
  have hids : rackedPlan.ids.Nodup := by decide +kernel
  have hperm : ["vm", "app"].Perm watchGroup.members := .swap ..
  have hsame : ∀ id, id ∈ ["vm", "app"] ↔ id ∈ watchGroup.members := fun id => hperm.mem_iff
  obtain ⟨hok, hresult⟩ :=
    decorate_sameMembers_iff hids hsame .empty [] [] (.start .error false)
  obtain ⟨q, hq⟩ : ∃ q, (Plan.decorate .empty [watchGroup] rackedPlan
      (.start .error false)).1 = .ok q :=
    ⟨_, (decorate_eq_ok_decorated hids).2 ⟨by decide +kernel, rfl⟩⟩
  obtain ⟨q', hq'⟩ := hok.2 ⟨q, hq⟩
  obtain ⟨-, -, heq⟩ := hresult q q' hq hq'
  obtain rfl : q' = q := heq.2 (.inr hperm)
  exact ⟨hids, hsame, q', hq, hq'⟩

/-- Listed twice, a node of the group is watched twice. -/
theorem decorate_repeatedMember :
    rackedPlan.ids.Nodup ∧ (∀ id, id ∈ ["app", "vm", "app"] ↔ id ∈ watchGroup.members) ∧
    ∃ q q', (Plan.decorate .empty [watchGroup] rackedPlan (.start .error false)).1 = .ok q ∧
      (Plan.decorate .empty [watchGroup.withMembers ["app", "vm", "app"]] rackedPlan
        (.start .error false)).1 = .ok q' ∧ q' ≠ q ∧
      (Tree.labelsOf q.roots).map (fun n => (n.id, n.behaviors.map (·.name))) =
        [("vm", ["watch"]), ("app", ["watch"]), ("db", [])] ∧
      (Tree.labelsOf q'.roots).map (fun n => (n.id, n.behaviors.map (·.name))) =
        [("vm", ["watch"]), ("app", ["watch", "watch"]), ("db", [])] := by
  have hids : rackedPlan.ids.Nodup := by decide +kernel
  have honce : (Tree.labelsOf (rackedPlan.decorated .empty (policiesOf [watchGroup])).roots).map
      (fun n => (n.id, n.behaviors.map (·.name))) =
      [("vm", ["watch"]), ("app", ["watch"]), ("db", [])] := by
    decide +kernel
  have htwice : (Tree.labelsOf (rackedPlan.decorated .empty
      (policiesOf [watchGroup.withMembers ["app", "vm", "app"]])).roots).map
      (fun n => (n.id, n.behaviors.map (·.name))) =
      [("vm", ["watch"]), ("app", ["watch", "watch"]), ("db", [])] := by
    decide +kernel
  refine ⟨hids, fun id => ?_, _, _, (decorate_eq_ok_decorated hids).2 ⟨by decide +kernel, rfl⟩,
    (decorate_eq_ok_decorated hids).2 ⟨by decide +kernel, rfl⟩, fun heq => ?_, honce, htwice⟩
  · simp [watchGroup, or_comm]
  · rw [heq, honce] at htwice
    simp at htwice

end

end Plan

end DeployPlan
