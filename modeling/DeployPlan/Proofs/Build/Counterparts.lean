import DeployPlan.Build.Commands
import DeployPlan.Proofs.Build.Steps
import DeployPlan.Proofs.Evaluation.Counterparts

/-!
# Commands of counterparts

The commands of a node come from its operations, those of its relationships and those of the
relationships that lead to it. Two jobs whose scenes are counterparts and that agree on these
operations build the same commands.
-/
namespace DeployPlan

theorem Topology.Counterpart.incoming {t t' : Topology} (h : t.Counterpart t') (id : String) :
    Build.incoming t' id = Build.incoming t id := by
  unfold Build.incoming
  unfold Topology.Counterpart at h
  generalize t.nodes = nodes at h ⊢
  generalize t'.nodes = nodes' at h ⊢
  induction h with
  | nil => rfl
  | cons hn _ ih => rw [List.flatMap_cons, List.flatMap_cons, ih, hn.id, hn.relationships]

/-- Jobs that read the same files with the same settings, whose scenes are counterparts and in which
entity keys and relationships mean the same. -/
structure Job.Counterpart (job job' : Job) : Prop where
  scene : job.scene.Counterpart job'.scene
  archive : job'.scene.topology.archive = job.scene.topology.archive
  files : job'.files = job.files
  settings : job'.settings = job.settings
  keys : ∀ v ∈ job.scene.values, ∀ key ∈ v.entityKeys, job.scene.DenotesIn job'.scene key
  edgeOperations : ∀ r, Build.edgeOperations job' r = Build.edgeOperations job r

namespace Build

variable {job job' : Job} {n n' : NodeTemplate}

theorem gather_congr {α : Type} {f g : α → Build (List Contribution)} {sources : List α}
    (h : ∀ a ∈ sources, f a = g a) : gather f sources = gather g sources := by
  rw [gather, gather, mapM_congr h]

theorem script_counterpart (h : job.Counterpart job') (a : Artifact) :
    job'.script a = job.script a := by
  rw [Job.script, Job.script, h.archive, h.files, h.settings]

/-- What an operation contributes is the same when its inputs are values of the scene. -/
theorem contribution_counterpart (h : job.Counterpart job') {op : Operation}
    (hop : ∀ input ∈ op.inputs, input.2 ∈ job.scene.values) (id : String) (scope : Scope)
    (slot : CommandSlot) :
    contribution job' id scope slot op = contribution job id scope slot op := by
  have hload (a : Artifact) : loadScript job' id a = loadScript job id a := by
    rw [loadScript, loadScript, script_counterpart h]
  have hexports : pushExports job' scope .empty op.inputs =
      pushExports job scope .empty op.inputs := by
    refine foldlM_congr (fun script input hinput => ?_) FormatText.empty
    rw [Eval.resolve_counterpart h.scene h.keys (h.keys _ (hop input hinput))]
  simp only [contribution, operationScript?, hexports, hload]

theorem ownContribution_counterpart (h : job.Counterpart job') (hn : n.Counterpart n')
    (hmem : n ∈ job.scene.topology.nodes) {op : Operation} (hop : op ∈ ownOperations job n) :
    ownContribution job' n' op = ownContribution job n op := by
  have hinputs (input : String × PropertyValue) (hinput : input ∈ op.inputs) :
      input.2 ∈ job.scene.values := Scene.mem_values_of_input (fun i hi w hw =>
    Scene.mem_values_of_node hmem (List.mem_append_left _ (List.mem_append_right _
      (List.mem_flatMap.2 ⟨i, hi, hw⟩)))) hop hinput
  unfold ownContribution
  cases nodeStage? op.name with
  | none => rfl
  | some slot => simp only [hn.id, h.scene.topology.nodeScope, contribution_counterpart h hinputs]

/-- A relationship whose values are those of the scene contributes the same. -/
theorem edgeContributions_counterpart (h : job.Counterpart job') {edge : String × Relationship}
    (hr : ∀ v ∈ edge.2.values, v ∈ job.scene.values) (id : String) (atEnd : RelationshipEnd) :
    edgeContributions job' id atEnd edge = edgeContributions job id atEnd edge := by
  rw [edgeContributions, edgeContributions, h.edgeOperations]
  refine gather_congr fun op hop => ?_
  have hinputs (input : String × PropertyValue) (hinput : input ∈ op.inputs) :
      input.2 ∈ job.scene.values := Scene.mem_values_of_input (fun i hi w hw =>
    hr w (List.mem_append_right _ (List.mem_flatMap.2 ⟨i, hi, hw⟩))) hop hinput
  unfold edgeContribution
  cases atEnd.stage? op.name with
  | none => rfl
  | some slot =>
    simp only [h.scene.topology.relationshipScope, contribution_counterpart h hinputs]

/-- The contributions to the commands of a node are the same if its own operations are. -/
theorem contributions_counterpart (h : job.Counterpart job') (hn : n.Counterpart n')
    (hmem : n ∈ job.scene.topology.nodes) (hown : ownOperations job' n' = ownOperations job n) :
    contributions job' n' = contributions job n := by
  have hfirst : gather (ownContribution job' n') (ownOperations job' n') =
      gather (ownContribution job n) (ownOperations job n) := by
    rw [hown]
    exact gather_congr fun op hop => ownContribution_counterpart h hn hmem hop
  have houtgoing : gather (edgeContributions job' n'.id .source)
      (n'.relationships.map fun r => (n'.id, r)) =
        gather (edgeContributions job n.id .source) (n.relationships.map fun r => (n.id, r)) := by
    rw [hn.id, hn.relationships]
    refine gather_congr fun edge hedge =>
      edgeContributions_counterpart h (fun v hv => ?_) n.id .source
    obtain ⟨r, hr, rfl⟩ := List.mem_map.1 hedge
    exact Scene.mem_values_of_relationship hmem hr hv
  have harriving : gather (edgeContributions job' n'.id .target)
      (incoming job'.scene.topology n'.id) =
        gather (edgeContributions job n.id .target) (incoming job.scene.topology n.id) := by
    rw [hn.id, h.scene.topology.incoming]
    refine gather_congr fun edge hedge =>
      edgeContributions_counterpart h (fun v hv => ?_) n.id .target
    obtain ⟨source, hsource, hedge⟩ := List.mem_flatMap.1 hedge
    obtain ⟨r, hr, rfl⟩ := List.mem_map.1 hedge
    exact Scene.mem_values_of_relationship hsource (List.mem_filter.1 hr).1 hv
  rw [contributions, contributions, hfirst, houtgoing, harriving]

theorem putCommands_counterpart (h : job.Counterpart job') (hn : n.Counterpart n')
    (hmem : n ∈ job.scene.topology.nodes) (hown : ownOperations job' n' = ownOperations job n)
    (p : NodePlan) : putCommands job' n' p = putCommands job n p := by
  rw [putCommands, putCommands, contributions_counterpart h hn hmem hown, h.settings]

end Build

end DeployPlan
