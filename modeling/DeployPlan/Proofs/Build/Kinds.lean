import DeployPlan.Proofs.Build.Commands
import DeployPlan.Proofs.Build.Readings

/-!
# Kinds of implementations

What a node is implemented by follows from the registry, the profile of its type and the number of
nodes placed on it. A node that is scripted has commands, one of which does nothing; a node that is
not scripted has nothing that scripts need.
-/
namespace DeployPlan

namespace Registry

end Registry

namespace Job

variable {job : Job} {n : NodeTemplate} {children : Nat} {kind : ImplementationKind}
  {i : Implementation}

end Job

namespace Contributor

variable {job : Job} {n : NodeTemplate}

theorem slot_of_ofOperation? {slot? : Option CommandSlot} {scope : Scope} {op : Operation}
    {c : Contributor} (h : ofOperation? slot? scope op = some c) : slot? = some c.slot := by
  obtain ⟨slot, rfl, h⟩ := Option.bind_eq_some_iff.1 h
  obtain ⟨a, -, rfl⟩ := Option.map_eq_some_iff.1 h
  rfl

end Contributor

/-- What of a node plan is about scripts. -/
def NodePlan.scripting (p : NodePlan) : ImplementationKind × Bool ×
    Std.ExtTreeMap CommandSlot PlanValue × NameMap PlanValue × RuntimeEnvironment :=
  (p.kind, p.scripted, p.commands, p.attributes, p.runtime)

theorem NodePlan.scripting_putConfig (p : NodePlan) (key : String) (v : PlanValue) :
    (p.putConfig key v).scripting = p.scripting := by
  unfold putConfig
  split <;> rfl

namespace Build

variable {job : Job} {n : NodeTemplate} {id : String} {children : Nat} {p p' : NodePlan}
  {q q' : Pass}

theorem scripting_putProvisioning (job : Job) (n : NodeTemplate) (p : NodePlan) :
    (putProvisioning job n p).scripting = p.scripting := by
  unfold putProvisioning
  split <;> rfl

theorem node?_of_template (h : template job id q = (.ok n, q')) :
    job.scene.topology.node? id = some n := by
  unfold template at h
  cases hm : job.scene.topology.node? id with
  | none =>
    rw [hm] at h
    cases h
  | some m =>
    rw [hm] at h
    cases h
    rfl

/-- A plan that has got properties and config has nothing yet that scripts need, and is what its
implementation makes it; it gets more if it is scripted. -/
theorem nodePlan_steps (h : nodePlan job id children q = (.ok p, q')) : ∃ n kind i p₃ q₃,
    job.scene.topology.node? id = some n ∧ job.choose n children = .ok (kind, i) ∧
      p₃.scripting = (kind, (i.scripted || kind = .scriptedProcess), ∅, ∅, .empty) ∧
      (if p₃.scripted then putScripted job n p₃ else pure p₃ : Build NodePlan) q₃ =
        (.ok p, q') := by
  obtain ⟨n, q₁, hn, h⟩ := bind_eq_ok h
  obtain ⟨p₁, q₂, hs, h⟩ := bind_eq_ok h
  obtain ⟨p₂, q₃, hp, h⟩ := bind_eq_ok h
  obtain ⟨p₃, q₄, hi, h⟩ := bind_eq_ok h
  obtain ⟨⟨kind, i⟩, q₅, hchoose, hs⟩ := bind_eq_ok hs
  obtain ⟨-, q₆, -, hs⟩ := bind_eq_ok hs
  obtain ⟨entries, q₇, -, hi⟩ := bind_eq_ok hi
  cases hs
  cases hi
  rw [ofExcept_run] at hchoose
  replace hchoose : job.choose n children = .ok (kind, i) := congrArg Prod.fst hchoose
  obtain ⟨rfl, -⟩ := lift_eq_ok hp
  refine ⟨n, kind, i, _, _, node?_of_template hn, hchoose, ?_, h⟩
  rw [NodePlan.putEntries_keeps NodePlan.scripting_putConfig, scripting_putProvisioning]
  exact (NodePlan.putEntries_keeps NodePlan.scripting_putConfig _ _).trans
    (NodePlan.putProperties_keeps NodePlan.scripting_putConfig (fun _ _ => rfl) _ _)

end Build

end DeployPlan
