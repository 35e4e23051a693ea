import DeployPlan.Compiler
import DeployPlan.Proofs.Build.Steps

/-!
# The identity of a node plan

A node plan is stamped with its identity when its implementation is chosen; nothing that is put on
it afterwards changes the stamp.
-/
namespace DeployPlan

/-- What a node plan is stamped with: id, type, displayed name and kind. -/
def NodePlan.identity (p : NodePlan) : String × String × String × ImplementationKind :=
  (p.id, p.nodeType, p.displayName, p.kind)

namespace NodePlan

variable {p : NodePlan}

@[simp] theorem identity_putConfig (p : NodePlan) (key : String) (v : PlanValue) :
    (p.putConfig key v).identity = p.identity := by
  unfold putConfig; split <;> rfl

/-- What putting config leaves as it is, putting entries in turn does. -/
theorem putEntries_keeps {γ : Type} {field : NodePlan → γ}
    (h : ∀ (p : NodePlan) key v, field (p.putConfig key v) = field p) (p : NodePlan)
    (entries : List (String × PlanValue)) : field (p.putEntries entries) = field p := by
  unfold putEntries
  induction entries generalizing p with
  | nil => rfl
  | cons e entries ih => rw [List.foldl_cons, ih, h]

theorem putProperties_keeps {γ : Type} {field : NodePlan → γ}
    (h : ∀ (p : NodePlan) key v, field (p.putConfig key v) = field p)
    (hproperties : ∀ (p : NodePlan) properties, field { p with properties } = field p)
    (p : NodePlan) (outcomes : List (String × Resolution)) :
    field (p.putProperties outcomes) = field p := by
  unfold putProperties
  induction outcomes generalizing p with
  | nil => rfl
  | cons o outcomes ih =>
    rw [List.foldl_cons, ih]
    split
    · rw [putProperty, h, hproperties]
    · rfl

@[simp] theorem identity_putProperties (p : NodePlan) (outcomes : List (String × Resolution)) :
    (p.putProperties outcomes).identity = p.identity :=
  putProperties_keeps identity_putConfig (fun _ _ => rfl) p outcomes

@[simp] theorem identity_putEntries (p : NodePlan) (entries : List (String × PlanValue)) :
    (p.putEntries entries).identity = p.identity :=
  putEntries_keeps identity_putConfig p entries

theorem setIdle_keeps {γ : Type} {field : NodePlan → γ}
    (h : ∀ (p : NodePlan) slot v, field (p.setCommand slot v) = field p) (noop : String)
    (p : NodePlan) : field (p.setIdle noop) = field p := by
  unfold setIdle
  induction idleSlots generalizing p with
  | nil => rfl
  | cons slot slots ih => rw [List.foldl_cons, ih, h]

theorem setCommands_keeps {γ : Type} {field : NodePlan → γ}
    (h : ∀ (p : NodePlan) slot v, field (p.setCommand slot v) = field p)
    (cs : List Contribution) (p : NodePlan) : field (p.setCommands cs) = field p := by
  unfold setCommands
  induction CommandSlot.all generalizing p with
  | nil => rfl
  | cons slot slots ih =>
    rw [List.foldl_cons, ih]
    split
    · exact h p slot _
    · rfl

end NodePlan

namespace Build

variable {job : Job} {n : NodeTemplate} {id : String} {p p' : NodePlan} {q q' : Pass}

/-- What is put on the plan of a node after its implementation has been chosen. -/
def complete (job : Job) (n : NodeTemplate) (p : NodePlan) : Build NodePlan := do
  let p ← putProperties job n p
  let p ← putInjected job n (putProvisioning job n p)
  if p.scripted then putScripted job n p else return p

theorem nodePlan_eq (job : Job) (id : String) (children : Nat) :
    nodePlan job id children =
      template job id >>= fun n => select job n children >>= complete job n := rfl

theorem template_of_some (h : job.scene.topology.node? id = some n) :
    template job id = pure n := by
  rw [template, h]

theorem template_of_none (h : job.scene.topology.node? id = none) :
    template job id = fail (.compile (.nodeNotFound id none)) := by
  rw [template, h]

@[simp] theorem identity_putProvisioning (job : Job) (n : NodeTemplate) (p : NodePlan) :
    (putProvisioning job n p).identity = p.identity := by
  unfold putProvisioning; split <;> rfl

/-- What an attribute leaves as it is, putting attributes does. -/
theorem putAttribute_keeps {γ : Type} {field : NodePlan → γ}
    (h : ∀ (p : NodePlan) attributes, field { p with attributes } = field p) (job : Job)
    (scope : Scope) (p : NodePlan) (name : String) (v : PropertyValue) (q : Pass) :
    field (putAttribute job scope p name v q).1 = field p := by
  simp only [putAttribute, bind, StateT.bind]
  generalize Eval.resolve job.scene scope v q = r
  obtain ⟨outcome, s⟩ := r
  cases hv : PlanValue.ofResolution? outcome with
  | none =>
    simp only [hv]
    rfl
  | some v =>
    simp only [hv]
    exact h p _

theorem putAttributes_keeps {γ : Type} {field : NodePlan → γ}
    (h : ∀ (p : NodePlan) attributes, field { p with attributes } = field p) (job : Job)
    (n : NodeTemplate) (p : NodePlan) (q : Pass) :
    field (putAttributes job n p q).1 = field p := by
  unfold putAttributes
  induction (job.profile n.nodeType).attributes generalizing p q with
  | nil => rfl
  | cons a as ih =>
    rw [List.foldlM_cons]
    refine (ih _ _).trans ?_
    obtain ⟨name, v⟩ := a
    cases v with
    | none => rfl
    | some v => exact putAttribute_keeps h job _ p name v q

theorem identity_of_select {children : Nat} (h : select job n children q = (.ok p, q')) :
    p.id = n.id ∧ p.nodeType = n.nodeType ∧ p.displayName = n.effectiveName := by
  obtain ⟨⟨kind, implementation⟩, q₁, -, h⟩ := bind_eq_ok h
  obtain ⟨-, q₂, -, h⟩ := bind_eq_ok h
  cases h
  exact ⟨rfl, rfl, rfl⟩

theorem identity_of_putInjected (h : putInjected job n p q = (.ok p', q')) :
    p'.identity = p.identity := by
  obtain ⟨entries, q₁, -, h⟩ := bind_eq_ok h
  cases h
  exact p.identity_putEntries entries

/-- What staged files, attributes and commands leave as it is, putting what only scripted plans have
does. -/
theorem putScripted_keeps {γ : Type} {field : NodePlan → γ}
    (hruntime : ∀ (p : NodePlan) runtime, field { p with runtime } = field p)
    (hattributes : ∀ (p : NodePlan) attributes, field { p with attributes } = field p)
    (hcommands : ∀ (p : NodePlan) slot v, field (p.setCommand slot v) = field p)
    (h : putScripted job n p q = (.ok p', q')) : field p' = field p := by
  obtain ⟨p₁, q₁, h₁, h⟩ := bind_eq_ok h
  obtain ⟨p₂, q₂, h₂, h⟩ := bind_eq_ok h
  obtain ⟨cs, q₃, -, h⟩ := bind_eq_ok h
  cases h
  obtain ⟨rfl, rfl⟩ := lift_eq_ok h₁
  obtain ⟨rfl, rfl⟩ := lift_eq_ok h₂
  rw [NodePlan.setCommands_keeps hcommands, NodePlan.setIdle_keeps hcommands,
    putAttributes_keeps hattributes]
  exact hruntime p _

theorem identity_of_putScripted (h : putScripted job n p q = (.ok p', q')) :
    p'.identity = p.identity :=
  putScripted_keeps (fun _ _ => rfl) (fun _ _ => rfl) (fun _ _ _ => rfl) h

theorem id_of_template (h : template job id q = (.ok n, q')) : n.id = id := by
  unfold template at h
  cases hm : job.scene.topology.node? id with
  | none => simp only [hm] at h; cases h
  | some m => simp only [hm] at h; cases h; exact Topology.id_of_node? hm

theorem id_of_nodePlan {children : Nat} (h : nodePlan job id children q = (.ok p, q')) :
    p.id = id := by
  obtain ⟨n, q₁, hn, h⟩ := bind_eq_ok h
  obtain ⟨p₁, q₂, hs, h⟩ := bind_eq_ok h
  obtain ⟨p₂, q₃, hp, h⟩ := bind_eq_ok h
  obtain ⟨p₃, q₄, hi, h⟩ := bind_eq_ok h
  have hp₃ : p₃.identity = p₁.identity := by
    obtain ⟨rfl, rfl⟩ := lift_eq_ok hp
    rw [identity_of_putInjected hi, identity_putProvisioning]
    exact (NodePlan.identity_putEntries _ _).trans (NodePlan.identity_putProperties _ _)
  have hp' : p.identity = p₃.identity := by
    split at h
    · exact identity_of_putScripted h
    · cases h; rfl
  have heq := congrArg Prod.fst (hp'.trans hp₃)
  exact heq.trans ((identity_of_select hs).1.trans (id_of_template hn))

end Build

end DeployPlan
