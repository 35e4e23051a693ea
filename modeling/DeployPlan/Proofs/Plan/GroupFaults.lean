import DeployPlan.Proofs.Plan.Decoration
import Mathlib.Tactic.ByContra

/-!
# What can be wrong with a group

A group decorates a plan when the plan has all members of the group and each behaviour has a type
that is not blank. Nothing else stops it, and no decoration changes which members the plan has.
-/
namespace DeployPlan

namespace Plan

/-- A plan has a node plan for each declared id, and for no other. -/
def Covers (p : Plan) (t : Topology) : Prop := ∀ id, id ∈ Tree.labelsOf p.idForest ↔ id ∈ t.ids

theorem Covers.mem_ids_iff {p : Plan} {t : Topology} (h : p.Covers t) (id : String) :
    id ∈ p.ids ↔ id ∈ t.ids := by
  rw [ids_eq_labelsOf, h id]

end Plan

/-- What is wrong with a group, and the failure that reports it. -/
inductive GroupFault (t : Topology) (g : Group) : Failure → Prop
  /-- A member is not declared. -/
  | stray {id : String} (member : id ∈ g.members) (undeclared : id ∉ t.ids) :
      GroupFault t g (.compile (.unknownGroupMember g.name id))
  /-- A behaviour has no type, or a blank one. -/
  | untyped {policy : Policy} (declared : policy ∈ g.policies) (behavior : policy.kind = .behavior)
      (untyped : ∀ name, policy.behaviorType = some name → Text.isBlank name = true) :
      GroupFault t g (.compile (.missingBehaviorType g.name policy.name))

/-- Nothing is wrong with a group when its members are declared and its behaviours have a type. -/
theorem not_groupFault_iff {t : Topology} {g : Group} :
    (∀ f, ¬ GroupFault t g f) ↔ (∀ id ∈ g.members, id ∈ t.ids) ∧
      ∀ policy ∈ g.policies, policy.kind = .behavior →
        ∃ name, policy.behaviorType = some name ∧ Text.isBlank name = false := by
  constructor
  · intro h
    refine ⟨fun id hid => ?_, fun policy hpolicy hkind => ?_⟩
    · by_contra hundeclared
      exact h _ (.stray hid hundeclared)
    · by_contra hnone
      refine h _ (.untyped hpolicy hkind fun name hname => ?_)
      by_contra hblank
      exact hnone ⟨name, hname, by simpa using hblank⟩
  · rintro ⟨hmembers, htypes⟩ f hf
    cases hf with
    | stray hid hundeclared => exact hundeclared (hmembers _ hid)
    | untyped hpolicy hkind huntyped =>
      obtain ⟨name, hname, hblank⟩ := htypes _ hpolicy hkind
      exact Bool.false_ne_true (hblank.symm.trans (huntyped name hname))

section

variable {t : Topology} {g : Group} {r : Registry} {groups : List Group} {p p' : Plan}
  {log log' : Log} {f : Failure}

/-- The first fault of a group is one of its faults. -/
theorem groupFault_of_fault? (hp : p.Covers t) (h : g.fault? p.ids = some f) :
    GroupFault t g f := by
  rcases Option.or_eq_some_iff.1 h with hstray | ⟨-, huntyped⟩
  · obtain ⟨id, hid, rfl⟩ := Option.map_eq_some_iff.1 hstray
    have hmissing : id ∉ p.ids := by simpa using List.find?_some hid
    rw [hp.mem_ids_iff] at hmissing
    exact .stray (List.mem_of_find?_eq_some hid) hmissing
  · obtain ⟨policy, hpolicy, rfl⟩ := Option.map_eq_some_iff.1 huntyped
    obtain ⟨hkind, hblank⟩ := policy.isUntyped_iff.1 (List.find?_some hpolicy)
    exact .untyped (List.mem_of_find?_eq_some hpolicy) hkind hblank

/-- A group with a fault has a first one. -/
theorem fault?_ne_none (hp : p.Covers t) (h : GroupFault t g f) : g.fault? p.ids ≠ none := by
  rw [← Option.isSome_iff_ne_none, Group.isSome_fault?_iff]
  cases h with
  | stray hmember hundeclared => exact .inl ⟨_, hmember, by rwa [hp.mem_ids_iff]⟩
  | untyped hdeclared hkind huntyped => exact .inr ⟨_, hdeclared, hkind, huntyped⟩

/-- Groups that decorate a plan in turn are all in order. -/
theorem Plan.decorate_ok (hp : p.Covers t) (h : Plan.decorate r groups p log = (.ok p', log')) :
    ∀ g ∈ groups, ∀ f, ¬ GroupFault t g f := by
  obtain ⟨hnone, -⟩ := decorate_eq_ok_iff.1 (congrArg Prod.fst h)
  intro g hg f hf
  exact fault?_ne_none hp hf (List.findSome?_eq_none_iff.1 hnone g hg)

theorem Plan.decorate_error (hp : p.Covers t)
    (h : Plan.decorate r groups p log = (.error f, log')) : ∃ g ∈ groups, GroupFault t g f := by
  have hsome := decorate_eq_error_iff.1 (congrArg Prod.fst h)
  obtain ⟨g, hg, hgf⟩ := List.exists_of_findSome?_eq_some hsome
  exact ⟨g, hg, groupFault_of_fault? hp hgf⟩

end

end DeployPlan
