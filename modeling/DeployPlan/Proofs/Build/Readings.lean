import DeployPlan.Proofs.Build.Contributors
import DeployPlan.Proofs.Build.Selection
import DeployPlan.Proofs.Evaluation.Query
import DeployPlan.Proofs.Plan.Config

/-!
# What a node plan reads

The plan of a node asks for its properties, for what its relationships write into its config and, if
it is scripted, for the attributes of its type and the inputs of its scripts. Staging files asks for
nothing. Nothing that is put on a plan changes whether it is scripted.
-/
namespace DeployPlan

namespace Job

/-- What a relationship of a node is asked for when it writes into the config. -/
def edgeQueries (job : Job) (n : NodeTemplate) (r : Relationship) : List Query :=
  ["prop.name", "prop.collection", "prop.value"].filterMap fun name =>
    r.properties[name]?.map (.value (job.scene.topology.relationshipScope n.id r))

/-- The attributes that the type of a node gives values. -/
def attributeQueries (job : Job) (n : NodeTemplate) : List Query :=
  (job.profile n.nodeType).attributes.filterMap fun a =>
    a.2.map (.value (job.scene.topology.nodeScope n.id))

/-- The inputs of the scripts that contribute to the commands of a node. -/
def inputQueries (job : Job) (n : NodeTemplate) : List Query :=
  (Contributor.all job n).flatMap fun c => c.inputs.map fun input => .value c.scope input.2

/-- What the plan of a node asks for, in order. -/
def queries (job : Job) (n : NodeTemplate) : List Query :=
  .properties n.id :: (Build.injecting job n).flatMap (job.edgeQueries n) ++
    if job.scripted n then job.attributeQueries n ++ job.inputQueries n else []

end Job

namespace NodePlan

theorem scripted_putConfig (p : NodePlan) (key : String) (v : PlanValue) :
    (p.putConfig key v).scripted = p.scripted := by
  unfold putConfig
  split <;> rfl

theorem scripted_putProperties (p : NodePlan) (outcomes : List (String × Resolution)) :
    (p.putProperties outcomes).scripted = p.scripted :=
  putProperties_keeps scripted_putConfig (fun _ _ => rfl) p outcomes

theorem scripted_putEntries (p : NodePlan) (entries : List (String × PlanValue)) :
    (p.putEntries entries).scripted = p.scripted :=
  putEntries_keeps scripted_putConfig p entries

end NodePlan

namespace Build

variable {job : Job} {n : NodeTemplate} {stack : List PropertyKey}

theorem scripted_putProvisioning (job : Job) (n : NodeTemplate) (p : NodePlan) :
    (putProvisioning job n p).scripted = p.scripted := by
  unfold putProvisioning
  split <;> rfl

theorem values_putProvisioning (job : Job) (n : NodeTemplate) (p : NodePlan) :
    (putProvisioning job n p).values = p.values := by
  unfold putProvisioning
  split <;> rfl

theorem visits_noteUnresolved (s : Scene) (outcomes : List (String × Resolution)) :
    Eval.Visits s stack [] (fun _ => ()) (noteUnresolved outcomes) := by
  rw [noteUnresolved, List.forM_eq_forM]
  induction outcomes with
  | nil => exact Eval.Visits.pure ()
  | cons o outcomes ih =>
    have hnote : Eval.Visits s stack [] (fun _ => ()) (if o.2 = .unresolved then
        Eval.note .debug s!"property {o.1} is unresolved" [("property", .str o.1)]
        else pure ()) := by
      split
      · exact Eval.Visits.note ..
      · exact Eval.Visits.pure ()
    rw [List.forM_cons]
    exact Eval.Visits.andThen hnote ih

theorem visits_putProperties (job : Job) (n : NodeTemplate) (p : NodePlan) :
    Eval.Visits job.scene stack (Query.keys job.scene (.properties n.id))
      (fun v => (p.putProperties ((job.scene.propertyNames n.id).map fun name =>
        (name, v ⟨n.id, name⟩))).putEntries n.artifactEntries)
      (putProperties job n p) := by
  have hput (outcomes : List (String × Resolution)) : Eval.Visits job.scene stack []
      (fun _ => (p.putProperties outcomes).putEntries n.artifactEntries)
      (noteUnresolved outcomes >>= fun _ =>
        pure ((p.putProperties outcomes).putEntries n.artifactEntries)) :=
    (visits_noteUnresolved job.scene outcomes).andThen (Eval.Visits.pure _)
  have hall := (Eval.visits_nodeProperties job.scene stack n.id).bind hput
  rw [List.append_nil] at hall
  exact hall

theorem visits_edgeProperty (job : Job) (scope : Scope) (r : Relationship) (name : String) :
    Eval.Visits job.scene stack
      ((r.properties[name]?.map (Query.value scope)).toList.flatMap (Query.keys job.scene))
      (fun v => (r.properties[name]?.map (job.scene.denote v scope)).getD .unresolved)
      (edgeProperty job scope r name) := by
  unfold edgeProperty
  cases r.properties[name]? with
  | none => exact Eval.Visits.pure _
  | some v =>
    rw [Option.map_some, Option.toList_some, List.flatMap_singleton]
    exact Eval.visits_resolve job.scene stack scope v

theorem visits_foldlM {α β : Type} {s : Scene} {f : β → α → Eval β}
    (hf : ∀ b a, ∃ c, Eval.Visits s stack [] (fun _ => c) (f b a)) (as : List α) (b : β) :
    ∃ c, Eval.Visits s stack [] (fun _ => c) (as.foldlM f b) := by
  induction as generalizing b with
  | nil => exact ⟨b, Eval.Visits.pure b⟩
  | cons a as ih =>
    obtain ⟨c, hc⟩ := hf b a
    obtain ⟨d, hd⟩ := ih c
    exact ⟨d, hc.andThen hd⟩

theorem visits_stageArtifact (job : Job) (e : RuntimeEnvironment) (artifact : String × Artifact) :
    ∃ e', Eval.Visits job.scene stack [] (fun _ => e') (stageArtifact job e artifact) := by
  have hnoted (level : Level) (message : String) (data : Fields) (e : RuntimeEnvironment) :
      ∃ e', Eval.Visits job.scene stack [] (fun _ => e')
        (Eval.note level message data >>= fun _ => pure e) :=
    ⟨e, (Eval.Visits.note ..).andThen (Eval.Visits.pure e)⟩
  obtain ⟨id, a⟩ := artifact
  simp only [stageArtifact]
  split
  · split
    · split
      · exact hnoted ..
      · simp only [stageNamed]
        split
        · split
          · exact ⟨_, Eval.Visits.pure _⟩
          · exact hnoted ..
        · exact hnoted ..
    · exact hnoted ..
  · exact hnoted ..

theorem visits_putRuntime (job : Job) (stack : List PropertyKey) (n : NodeTemplate) (p : NodePlan) :
    ∃ e, Eval.Visits job.scene stack [] (fun _ => { p with runtime := e })
      (putRuntime job n p) := by
  obtain ⟨e, he⟩ := visits_foldlM (fun e artifact => visits_stageArtifact job e artifact)
    (job.profile n.nodeType).artifacts p.runtime
  exact ⟨e, he.map fun e => { p with runtime := e }⟩

/-- A plan with the outcome of an attribute, left out if it is unresolved. -/
def insertAttribute (p : NodePlan) (name : String) (outcome : Resolution) : NodePlan :=
  match PlanValue.ofResolution? outcome with
  | some v => { p with attributes := p.attributes.insert (attributeKey name) v }
  | none => p

theorem values_insertAttribute (p : NodePlan) (name : String) (outcome : Resolution) :
    (insertAttribute p name outcome).values = p.values := by
  unfold insertAttribute
  split <;> rfl

theorem visits_putAttribute (job : Job) (scope : Scope) (p : NodePlan) (name : String)
    (v : PropertyValue) :
    Eval.Visits job.scene stack (job.scene.reads scope v)
      (fun value => insertAttribute p name (job.scene.denote value scope v))
      (putAttribute job scope p name v) := by
  have hinsert (outcome : Resolution) : Eval.Visits job.scene stack []
      (fun _ => insertAttribute p name outcome)
      (match PlanValue.ofResolution? outcome with
      | some v => pure { p with attributes := p.attributes.insert (attributeKey name) v }
      | none => do
        Eval.note .warn s!"attribute {name} could not be resolved; skipping"
          [("attribute", .str name)]
        return p) := by
    unfold insertAttribute
    split
    · exact Eval.Visits.pure _
    · exact (Eval.Visits.note ..).andThen (Eval.Visits.pure _)
  have hall := (Eval.visits_resolve job.scene stack scope v).bind hinsert
  rw [List.append_nil] at hall
  exact hall

/-- The attributes of a node's type are read in order; they are apart from properties and config. -/
theorem visits_putAttributes (job : Job) (stack : List PropertyKey) (n : NodeTemplate)
    (p : NodePlan) :
    ∃ value, Eval.Visits job.scene stack ((job.attributeQueries n).flatMap (Query.keys job.scene))
        value (putAttributes job n p) ∧ ∀ v, (value v).values = p.values := by
  unfold putAttributes Job.attributeQueries
  induction (job.profile n.nodeType).attributes generalizing p with
  | nil => exact ⟨fun _ => p, Eval.Visits.pure p, fun _ => rfl⟩
  | cons a attributes ih =>
    obtain ⟨name, v?⟩ := a
    rw [List.foldlM_cons]
    cases v? with
    | none => exact ih p
    | some v =>
      choose value hvisits hvalues using ih
      refine ⟨_, (visits_putAttribute job _ p name v).bind hvisits, fun w => ?_⟩
      rw [hvalues, values_insertAttribute]

end Build

end DeployPlan
