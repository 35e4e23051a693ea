import DeployPlan.Build.Commands
import DeployPlan.Proofs.Build.Steps
import DeployPlan.Proofs.Evaluation.Pass

/-!
# Contributors to commands

The operations that contribute to the commands of a node are a list that the topology and the types
determine. A build of the contributions that succeeds has read the artifact of each of them, and
evaluated their inputs in that order.
-/
namespace DeployPlan

/-- An operation with a script: the slot of its command, the scope of its inputs, and the artifact
that the script comes from. -/
structure Contributor where
  slot : CommandSlot
  scope : Scope
  inputs : List (String × PropertyValue)
  artifact : Artifact
deriving DecidableEq

namespace Contributor

/-- The contributor that an operation is, if it has a slot and its artifact a reference. -/
def ofOperation? (slot? : Option CommandSlot) (scope : Scope) (op : Operation) :
    Option Contributor :=
  slot?.bind fun slot =>
    (op.implementation.filter (·.hasReference)).map fun a => ⟨slot, scope, op.inputs, a⟩

def own (job : Job) (n : NodeTemplate) : List Contributor :=
  (Build.ownOperations job n).filterMap fun op =>
    ofOperation? (nodeStage? op.name) (job.scene.topology.nodeScope n.id) op

/-- The operations of a relationship, given with the node that it starts from, at an end. -/
def ofEdge (job : Job) (atEnd : RelationshipEnd) (edge : String × Relationship) :
    List Contributor :=
  (Build.edgeOperations job edge.2).filterMap fun op =>
    ofOperation? (atEnd.stage? op.name) (job.scene.topology.relationshipScope edge.1 edge.2) op

/-- All that contribute to the commands of a node: its own operations, those of the relationships
that start from it, and those of the relationships that lead to it. -/
def all (job : Job) (n : NodeTemplate) : List Contributor :=
  own job n ++ (n.relationships.map fun r => (n.id, r)).flatMap (ofEdge job .source) ++
    (Build.incoming job.scene.topology n.id).flatMap (ofEdge job .target)

/-- The properties that the inputs read, in order. -/
def reads (s : Scene) (c : Contributor) : List PropertyKey :=
  c.inputs.flatMap fun input => s.reads c.scope input.2

/-- The body of the script, empty when the artifact cannot be read. -/
def body (job : Job) (c : Contributor) : String := (job.script c.artifact).toOption.getD ""

/-- A script with the export lines of the inputs, `value` giving the values of properties. -/
def exports (s : Scene) (value : PropertyKey → Resolution) (scope : Scope) (script : FormatText)
    (inputs : List (String × PropertyValue)) : FormatText :=
  inputs.foldl (fun script input => script.pushExport input.1 (s.denote value scope input.2)) script

/-- The script, `value` giving the values of properties. -/
def script (job : Job) (value : PropertyKey → Resolution) (c : Contributor) : FormatText :=
  (exports job.scene value c.scope .empty c.inputs).pushText (c.body job)

/-- What is contributed, `value` giving the values of properties. -/
def contribution (job : Job) (value : PropertyKey → Resolution) (c : Contributor) : Contribution :=
  ⟨c.slot, c.script job value⟩

end Contributor

theorem Build.loadScript_eq_ok {job : Job} {id text : String} {a : Artifact} {p p' : Pass}
    (h : loadScript job id a p = (.ok text, p')) : job.script a = .ok text ∧ p' = p := by
  unfold loadScript at h
  cases hscript : job.script a with
  | error f =>
    rw [hscript] at h
    cases h
  | ok body =>
    rw [hscript] at h
    cases h
    exact ⟨rfl, rfl⟩

namespace Eval

theorem visits_pushExports (job : Job) (stack : List PropertyKey) (scope : Scope)
    (script : FormatText) (inputs : List (String × PropertyValue)) :
    Visits job.scene stack (inputs.flatMap fun input => job.scene.reads scope input.2)
      (fun value => Contributor.exports job.scene value scope script inputs)
      (Build.pushExports job scope script inputs) := by
  unfold Build.pushExports Contributor.exports
  induction inputs generalizing script with
  | nil => exact Visits.pure script
  | cons input inputs ih =>
    rw [List.foldlM_cons, List.flatMap_cons]
    have hfirst := (visits_resolve job.scene stack scope input.2).map (script.pushExport input.1)
    exact hfirst.bind fun script => ih script

end Eval

namespace Contributor

variable {job : Job} {c : Contributor} {cs others : List Contributor} {stack : List PropertyKey}

theorem contribution_congr {v w : PropertyKey → Resolution}
    (h : ∀ k ∈ c.reads job.scene, v k = w k) : c.contribution job v = c.contribution job w := by
  have hexports := (Eval.visits_pushExports job [] c.scope .empty c.inputs).congr v w h
  rw [contribution, contribution, script, script, hexports]

/-- A build gives what contributors contribute, and has visited what their inputs read. -/
structure Contributes (job : Job) (stack : List PropertyKey) (cs : List Contributor)
    (build : Build (List Contribution)) : Prop where
  run : ∀ (p p' : Pass) (out : List Contribution), p.resolving = stack →
    build p = (.ok out, p') →
    p'.resolving = stack ∧
    p'.memo = job.scene.visitAll stack p.memo (cs.flatMap (reads job.scene)) ∧
    out = cs.map (contribution job (Memo.answer p'.memo)) ∧
    ∀ c ∈ cs, job.script c.artifact = .ok (c.body job)

/-- What was contributed stays the same while others are visited. -/
theorem map_contribution_visitAll {m : Memo} {keys : List PropertyKey} :
    cs.map (contribution job (job.scene.visitAll stack
      (job.scene.visitAll stack m (cs.flatMap (reads job.scene))) keys).answer) =
    cs.map (contribution job (job.scene.visitAll stack m (cs.flatMap (reads job.scene))).answer) :=
  List.map_congr_left fun c hc => contribution_congr fun _ hk =>
    Scene.answer_visitAll_of_done (Scene.done_visitAll (List.mem_flatMap.2 ⟨c, hc, hk⟩))

theorem contributes_nil {e : Eval Unit} (he : Eval.Visits job.scene stack [] (fun _ => ()) e) :
    Contributes job stack [] ((liftM e : Build Unit) >>= fun _ => pure []) := by
  refine ⟨fun p p' out hp h => ?_⟩
  obtain ⟨u, q, hx, hf⟩ := Build.bind_eq_ok h
  obtain ⟨-, rfl⟩ := Build.lift_eq_ok hx
  cases hf
  obtain ⟨hstack, hmemo, -⟩ := he.run p hp
  exact ⟨hstack, hmemo, rfl, List.forall_mem_nil _⟩

theorem contributes_pure : Contributes job stack [] (pure []) := by
  refine ⟨fun p p' out hp h => ?_⟩
  cases h
  exact ⟨hp, rfl, rfl, List.forall_mem_nil _⟩

theorem Contributes.append {x y : Build (List Contribution)} (hx : Contributes job stack cs x)
    (hy : Contributes job stack others y) :
    Contributes job stack (cs ++ others) (x >>= fun a => y >>= fun b => pure (a ++ b)) := by
  refine ⟨fun p p' out hp h => ?_⟩
  obtain ⟨a, q, ha, h⟩ := Build.bind_eq_ok h
  obtain ⟨b, q', hb, h⟩ := Build.bind_eq_ok h
  cases h
  obtain ⟨hstack, hmemo, rfl, hbodies⟩ := hx.run p q a hp ha
  obtain ⟨hstack', hmemo', rfl, hbodies'⟩ := hy.run q p' b hstack hb
  have hkept : cs.map (contribution job (Memo.answer q.memo)) =
      cs.map (contribution job (Memo.answer p'.memo)) := by
    rw [hmemo', hmemo, map_contribution_visitAll]
  refine ⟨hstack', ?_, ?_, fun c hc => ?_⟩
  · rw [hmemo', hmemo, List.flatMap_append, Scene.visitAll_append]
  · rw [hkept, List.map_append]
  · exact (List.mem_append.1 hc).elim (hbodies c) (hbodies' c)

theorem Contributes.gather {α : Type} {f : α → Build (List Contribution)}
    {contributors : α → List Contributor}
    (hf : ∀ a, Contributes job stack (contributors a) (f a)) (sources : List α) :
    Contributes job stack (sources.flatMap contributors) (Build.gather f sources) := by
  induction sources with
  | nil => exact contributes_pure
  | cons a sources ih =>
    have hrun : Build.gather f (a :: sources) =
        f a >>= fun first => Build.gather f sources >>= fun rest => pure (first ++ rest) := by
      simp [Build.gather, List.mapM_cons]
    rw [hrun, List.flatMap_cons]
    exact (hf a).append ih

/-- An operation contributes if it names a script, and its artifact has been read then. -/
theorem contributes_contribution (job : Job) (stack : List PropertyKey) (id : String)
    (scope : Scope) (slot : CommandSlot) (op : Operation) :
    Contributes job stack (ofOperation? (some slot) scope op).toList
      (Build.contribution job id scope slot op) := by
  unfold Build.contribution Build.operationScript?
  cases himp : op.implementation with
  | none =>
    have hnone : ofOperation? (some slot) scope op = none := by simp [ofOperation?, himp]
    rw [hnone]
    exact contributes_nil (Eval.Visits.note ..)
  | some a =>
    by_cases href : a.hasReference = true
    · have hsome : ofOperation? (some slot) scope op = some ⟨slot, scope, op.inputs, a⟩ := by
        simp [ofOperation?, himp, href]
      rw [hsome]
      simp only [href, if_true]
      refine ⟨fun p p' out hp h => ?_⟩
      obtain ⟨script?, q, hscript, h⟩ := Build.bind_eq_ok h
      obtain ⟨text, q₁, hbody, hscript⟩ := Build.bind_eq_ok hscript
      obtain ⟨script, q₂, hexports, hscript⟩ := Build.bind_eq_ok hscript
      obtain ⟨rfl, rfl⟩ := Build.lift_eq_ok hexports
      cases hscript
      cases h
      obtain ⟨hread, rfl⟩ := Build.loadScript_eq_ok hbody
      obtain ⟨hstack, hmemo, hval⟩ :=
        (Eval.visits_pushExports job stack scope .empty op.inputs).run q₁ hp
      refine ⟨hstack, ?_, ?_, fun c hc => ?_⟩
      · rw [hmemo, Option.toList_some, List.flatMap_singleton, reads]
      · rw [hval, ← hmemo]
        simp [contribution, script, body, hread, Except.toOption]
      · rw [Option.toList_some, List.mem_singleton] at hc
        simp [hc, body, hread, Except.toOption]
    · have hnone : ofOperation? (some slot) scope op = none := by simp [ofOperation?, himp, href]
      rw [hnone]
      simp only [href]
      exact contributes_nil (Eval.Visits.note ..)

theorem contributes_own (job : Job) (stack : List PropertyKey) (n : NodeTemplate)
    (op : Operation) :
    Contributes job stack
      (ofOperation? (nodeStage? op.name) (job.scene.topology.nodeScope n.id) op).toList
      (Build.ownContribution job n op) := by
  unfold Build.ownContribution
  cases nodeStage? op.name with
  | none => exact contributes_nil (Eval.Visits.note ..)
  | some slot => exact contributes_contribution ..

theorem contributes_edge (job : Job) (stack : List PropertyKey) (id source : String)
    (r : Relationship) (atEnd : RelationshipEnd) (op : Operation) :
    Contributes job stack
      (ofOperation? (atEnd.stage? op.name)
        (job.scene.topology.relationshipScope source r) op).toList
      (Build.edgeContribution job id source r atEnd op) := by
  unfold Build.edgeContribution
  cases atEnd.stage? op.name with
  | some slot => exact contributes_contribution ..
  | none =>
    by_cases hother : (atEnd.across.stage? op.name).isNone = true
    · simp only [hother, if_true]
      exact contributes_nil (Eval.Visits.note ..)
    · simp only [hother]
      exact contributes_pure

theorem contributes_ofEdge (job : Job) (stack : List PropertyKey) (id : String)
    (atEnd : RelationshipEnd) (edge : String × Relationship) :
    Contributes job stack (ofEdge job atEnd edge) (Build.edgeContributions job id atEnd edge) := by
  rw [ofEdge, List.filterMap_eq_flatMap_toList]
  exact Contributes.gather (contributes_edge job stack id edge.1 edge.2 atEnd) _

/-- The contributions to the commands of a node are those of all its contributors. -/
theorem contributes_all (job : Job) (stack : List PropertyKey) (n : NodeTemplate) :
    Contributes job stack (all job n) (Build.contributions job n) := by
  have hown : Contributes job stack (own job n)
      (Build.gather (Build.ownContribution job n) (Build.ownOperations job n)) := by
    rw [own, List.filterMap_eq_flatMap_toList]
    exact Contributes.gather (contributes_own job stack n) _
  have houtgoing := Contributes.gather (contributes_ofEdge job stack n.id .source)
    (n.relationships.map fun r => (n.id, r))
  have harriving := Contributes.gather (contributes_ofEdge job stack n.id .target)
    (Build.incoming job.scene.topology n.id)
  have hall := (hown.append houtgoing).append harriving
  simp only [bind_assoc, pure_bind] at hall
  exact hall

end Contributor

end DeployPlan
