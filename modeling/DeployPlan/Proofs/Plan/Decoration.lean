import DeployPlan.Decoration
import DeployPlan.Proofs.Tree.Map

/-!
# Decorating a plan

Groups decorate a plan one policy after another. The first group with a fault refuses the plan; when
there is none, the plan is decorated by all policies in turn. That keeps its nodes in their places,
and all of them but their decorations.
-/
namespace DeployPlan

namespace Policy

/-- The behaviour that a policy attaches. One whose type is not registered counts as a policy. -/
def behavior? (r : Registry) (policy : Policy) : Option Behavior :=
  if policy.kind = .behavior then
    policy.behaviorType.map fun t =>
      ⟨policy.name, (r.category? t).getD .policy, t, policy.data⟩
  else none

/-- A behaviour without a type, or with a blank one. -/
def isUntyped (policy : Policy) : Bool :=
  policy.kind = .behavior && policy.behaviorType.all Text.isBlank

theorem isUntyped_iff (policy : Policy) : policy.isUntyped = true ↔ policy.kind = .behavior ∧
    ∀ name, policy.behaviorType = some name → Text.isBlank name = true := by
  simp [isUntyped, Option.all_eq_true]

end Policy

/-- The first fault of a group in a plan of some ids: a member that is not among them, and after the
members a behaviour without a type. -/
def Group.fault? (ids : List String) (g : Group) : Option Failure :=
  ((g.members.find? (· ∉ ids)).map fun id => .compile (.unknownGroupMember g.name id)).or
    ((g.policies.find? Policy.isUntyped).map fun policy =>
      .compile (.missingBehaviorType g.name policy.name))

/-- A group has a fault when one of its members is not in the plan, or one of its behaviours has no
type. -/
theorem Group.isSome_fault?_iff {ids : List String} {g : Group} : (g.fault? ids).isSome = true ↔
    (∃ id ∈ g.members, id ∉ ids) ∨ ∃ policy ∈ g.policies, policy.kind = .behavior ∧
      ∀ name, policy.behaviorType = some name → Text.isBlank name = true := by
  simp only [Group.fault?, Option.isSome_or, Option.isSome_map, Bool.or_eq_true,
    List.find?_isSome, decide_eq_true_iff, Policy.isUntyped_iff]

/-- The policies of groups, those of the first group first, each with its group. -/
def policiesOf (groups : List Group) : List (Group × Policy) :=
  groups.flatMap fun g => g.policies.map (Prod.mk g)

namespace Plan

def ids (p : Plan) : List String := (Tree.labelsOf p.roots).map (·.id)

/-- The ids of a plan in the shape of its trees. -/
def idForest (p : Plan) : List (Tree String) := p.roots.map (Tree.map NodePlan.id)

/-- What is told of the nodes of a plan, in the shape of its trees. -/
def told {γ : Type} (g : NodePlan → γ) (p : Plan) : List (Tree γ) := p.roots.map (Tree.map g)

theorem ids_eq_labelsOf (p : Plan) : p.ids = Tree.labelsOf p.idForest := by
  rw [idForest, Tree.labelsOf_map, ids]

theorem mem_subtreesOf_idForest {p : Plan} {q : PlanTree} (hq : q ∈ Tree.subtreesOf p.roots) :
    Tree.map NodePlan.id q ∈ Tree.subtreesOf p.idForest := by
  rw [idForest, Tree.subtreesOf_map]
  exact List.mem_map_of_mem hq

/-- A plan decorated by one policy of a group that has no fault. -/
def withPolicy (r : Registry) (p : Plan) (d : Group × Policy) : Plan :=
  match d.2.kind with
  | .location => p.setLocations d.1.members (locationValues d.2.data)
  | .behavior => (d.2.behavior? r).elim p (p.attach d.1.members)

/-- What is told of a node is nothing about its decorations. -/
structure SkipsDecorations {γ : Type} (g : NodePlan → γ) : Prop where
  locations : ∀ (n : NodePlan) locations, g { n with locations } = g n
  behaviors : ∀ (n : NodePlan) behaviors, g { n with behaviors } = g n

section

variable {γ : Type} {g : NodePlan → γ} {p p' : Plan}

/-- A change of a node in its own fields keeps what is told when it keeps what is told of the
node. -/
theorem told_updateNode {f : NodePlan → NodePlan} (hf : ∀ n, g (f n) = g n) (p : Plan)
    (id : String) : (p.updateNode f id).told g = p.told g := by
  unfold updateNode update update?
  cases h : Tree.updateIn? (hasId id) (Tree.mapLabel f) p.roots with
  | none => rfl
  | some roots =>
    have hm := Tree.mapAll_of_updateIn? (f := g) (Tree.map_mapLabel hf) h
    simpa [told] using hm

theorem told_updateNodes {f : NodePlan → NodePlan} (hf : ∀ n, g (f n) = g n) (p : Plan)
    (ids : List String) : (p.updateNodes ids f).told g = p.told g := by
  unfold updateNodes
  induction ids generalizing p with
  | nil => rfl
  | cons id ids ih => rw [List.foldl_cons, ih, told_updateNode hf]

theorem told_attach (hg : SkipsDecorations g) (p : Plan) (ids : List String) (b : Behavior) :
    (p.attach ids b).told g = p.told g := by
  unfold attach
  split
  · rfl
  · exact told_updateNodes (fun n => hg.behaviors n _) p ids

/-- A policy decorates nodes and leaves them in their places. -/
theorem told_withPolicy (hg : SkipsDecorations g) (r : Registry) (p : Plan) (d : Group × Policy) :
    (p.withPolicy r d).told g = p.told g := by
  unfold withPolicy
  cases d.2.kind with
  | location => exact told_updateNodes (fun n => hg.locations n _) p d.1.members
  | behavior =>
    cases d.2.behavior? r with
    | none => rfl
    | some b => exact told_attach hg p d.1.members b

theorem told_foldl_withPolicy (hg : SkipsDecorations g) (r : Registry) (p : Plan)
    (ds : List (Group × Policy)) : (ds.foldl (withPolicy r) p).told g = p.told g := by
  induction ds generalizing p with
  | nil => rfl
  | cons d ds ih => rw [List.foldl_cons, ih, told_withPolicy hg]

end

theorem skipsDecorations_id : SkipsDecorations NodePlan.id :=
  ⟨fun _ _ => rfl, fun _ _ => rfl⟩

theorem ids_foldl_withPolicy (r : Registry) (p : Plan) (ds : List (Group × Policy)) :
    (ds.foldl (withPolicy r) p).ids = p.ids := by
  rw [ids_eq_labelsOf, ids_eq_labelsOf]
  exact congrArg Tree.labelsOf (told_foldl_withPolicy skipsDecorations_id r p ds)

theorem isNone_find?_iff (p : Plan) (id : String) : (p.find? id).isNone = true ↔ id ∉ p.ids := by
  rw [Option.isNone_iff_eq_none, find?, Tree.findIn?_eq_none_iff, ids, List.mem_map]
  simp [hasId]

end Plan

namespace Group

theorem categoryOf_fst (g : Group) (r : Registry) (name : String) (log : Log) :
    (g.categoryOf r name log).1 = (r.category? name).getD .policy := by
  unfold categoryOf
  split
  · next c hc => rw [hc, Option.getD_some]
  · next hc => rw [hc, Option.getD_none]

/-- A policy is refused when it is a behaviour without a type. -/
theorem applyPolicy_fst (g : Group) (r : Registry) (policy : Policy) (p : Plan) (log : Log) :
    (g.applyPolicy r policy p log).1 =
      if policy.isUntyped then .error (.compile (.missingBehaviorType g.name policy.name))
      else .ok (p.withPolicy r (g, policy)) := by
  unfold applyPolicy Plan.withPolicy Policy.isUntyped Policy.behavior?
  cases hkind : policy.kind with
  | location => rfl
  | behavior =>
    unfold behaviorType
    cases hname : policy.behaviorType with
    | none => rfl
    | some name =>
      by_cases hblank : Text.isBlank name = true
      · simp [hblank]
      · simp [hblank, categoryOf_fst]

theorem applyPolicies_fst (g : Group) (r : Registry) (policies : List Policy) (p : Plan)
    (log : Log) : (g.applyPolicies r policies p log).1 =
      ((policies.find? Policy.isUntyped).map fun policy =>
        .compile (.missingBehaviorType g.name policy.name)).elim
        (.ok ((policies.map (Prod.mk g)).foldl (Plan.withPolicy r) p)) .error := by
  induction policies generalizing p log with
  | nil => rfl
  | cons policy policies ih =>
    have hfirst := g.applyPolicy_fst r policy p log
    rw [applyPolicies]
    generalize g.applyPolicy r policy p log = applied at hfirst
    obtain ⟨outcome, log'⟩ := applied
    by_cases huntyped : policy.isUntyped = true
    · rw [if_pos huntyped] at hfirst
      cases hfirst
      rw [List.find?_cons_of_pos huntyped]
      rfl
    · rw [if_neg huntyped] at hfirst
      cases hfirst
      rw [List.find?_cons_of_neg huntyped]
      exact ih (p.withPolicy r (g, policy)) log'

end Group

/-- A group decorates a plan in which it has no fault. -/
theorem Group.decorate_fst (g : Group) (r : Registry) (p : Plan) (log : Log) :
    (g.decorate r p log).1 =
      (g.fault? p.ids).elim (.ok ((g.policies.map (Prod.mk g)).foldl (Plan.withPolicy r) p))
        .error := by
  have hstray : g.strayMember? p = g.members.find? (· ∉ p.ids) := by
    rw [strayMember?]
    congr 1
    funext id
    rw [Bool.eq_iff_iff, Plan.isNone_find?_iff, decide_eq_true_iff]
  rw [decorate, hstray, fault?]
  cases g.members.find? (· ∉ p.ids) with
  | some id => rfl
  | none => exact g.applyPolicies_fst r g.policies p log

/-- Groups decorate a plan, policy after policy, when none of them has a fault. The first fault is
the one that is reported. -/
theorem Plan.decorate_fst (r : Registry) (groups : List Group) (p : Plan) (log : Log) :
    (Plan.decorate r groups p log).1 = (groups.findSome? (Group.fault? p.ids)).elim
      (.ok ((policiesOf groups).foldl (Plan.withPolicy r) p)) .error := by
  induction groups generalizing p log with
  | nil => rfl
  | cons g groups ih =>
    have hfirst := g.decorate_fst r p log
    rw [Plan.decorate]
    generalize g.decorate r p log = decorated at hfirst
    obtain ⟨outcome, log'⟩ := decorated
    cases hfault : g.fault? p.ids with
    | some f =>
      rw [hfault] at hfirst
      cases hfirst
      rw [List.findSome?_cons, hfault]
      rfl
    | none =>
      rw [hfault] at hfirst
      cases hfirst
      rw [List.findSome?_cons, hfault, policiesOf, List.flatMap_cons, List.foldl_append]
      rw [← Plan.ids_foldl_withPolicy r p (g.policies.map (Prod.mk g))]
      exact ih _ log'

namespace Plan

variable {r : Registry} {groups : List Group} {p p' : Plan} {log log' : Log} {f : Failure}

theorem decorate_eq_error_iff : (Plan.decorate r groups p log).1 = .error f ↔
    groups.findSome? (Group.fault? p.ids) = some f := by
  rw [decorate_fst]
  cases groups.findSome? (Group.fault? p.ids) <;> simp

theorem decorate_eq_ok_iff : (Plan.decorate r groups p log).1 = .ok p' ↔
    groups.findSome? (Group.fault? p.ids) = none ∧
      (policiesOf groups).foldl (withPolicy r) p = p' := by
  rw [decorate_fst]
  cases groups.findSome? (Group.fault? p.ids) <;> simp

/-- Decorating a plan keeps its nodes in their places, and all of them but their decorations. -/
theorem told_of_decorate {γ : Type} {g : NodePlan → γ} (hg : SkipsDecorations g)
    (h : Plan.decorate r groups p log = (.ok p', log')) : p'.told g = p.told g := by
  obtain ⟨-, rfl⟩ := decorate_eq_ok_iff.1 (congrArg Prod.fst h)
  exact told_foldl_withPolicy hg r p (policiesOf groups)

/-- Decorating a plan keeps its ids in their places. -/
theorem idForest_of_decorate (h : Plan.decorate r groups p log = (.ok p', log')) :
    p'.idForest = p.idForest :=
  told_of_decorate skipsDecorations_id h

end Plan

end DeployPlan
