import DeployPlan.Proofs.Build.Counterparts
import DeployPlan.Proofs.Build.Selection
import DeployPlan.Proofs.Naming.Evaluation
import DeployPlan.Proofs.Plan.Identity

/-!
# Node plans without display names

A display name gets into a plan when the implementation of its node is chosen, as the name that the
plan shows. Everything that is put on the plan afterwards is the same without display names, and is
put without looking at the name shown.
-/
namespace DeployPlan

/-- A job without display names. -/
def Job.unnamed (job : Job) : Job := { job with scene := job.scene.unnamed }

theorem Job.counterpart_unnamed {job : Job} (hs : job.scene.RefersById) :
    job.Counterpart job.unnamed where
  scene := job.scene.counterpart_unnamed
  archive := rfl
  files := rfl
  settings := rfl
  keys _ hv := hs.denotesIn hv
  edgeOperations _ := rfl

namespace Build

section

variable {job : Job} {n : NodeTemplate}

theorem resolve_unnamed (hs : job.scene.RefersById) {v : PropertyValue}
    (h : v ∈ job.scene.values) (scope : Scope) :
    Eval.resolve job.unnamed.scene scope v = Eval.resolve job.scene scope v :=
  Eval.resolve_unnamed hs h

theorem putRuntime_unnamed (job : Job) (n : NodeTemplate) (p : NodePlan) :
    putRuntime job.unnamed n.unnamed p = putRuntime job n p := rfl

theorem putProperties_unnamed (hs : job.scene.RefersById) (n : NodeTemplate) (p : NodePlan) :
    putProperties job.unnamed n.unnamed p = putProperties job n p := by
  have hproperties : Eval.nodeProperties job.unnamed.scene n.unnamed.id =
      Eval.nodeProperties job.scene n.id := Eval.nodeProperties_unnamed hs n.id
  rw [putProperties, putProperties, hproperties]
  rfl

theorem edgeProperty_unnamed (hs : job.scene.RefersById) {r : Relationship}
    (hr : ∀ v ∈ r.values, v ∈ job.scene.values) (scope : Scope) (name : String) :
    edgeProperty job.unnamed scope r name = edgeProperty job scope r name := by
  unfold edgeProperty
  cases hv : r.properties[name]? with
  | none => rfl
  | some v =>
    exact resolve_unnamed hs (hr v (List.mem_append_left _ (NameMap.mem_held hv))) scope

theorem putInjected_unnamed (hs : job.scene.RefersById) (hn : n ∈ job.scene.topology.nodes)
    (p : NodePlan) : putInjected job.unnamed n.unnamed p = putInjected job n p := by
  have hinjecting : injecting job.unnamed n.unnamed = injecting job n := rfl
  rw [putInjected, putInjected, hinjecting]
  refine congrArg (· >>= _) (mapM_congr fun r hr => ?_)
  have hvalues (v : PropertyValue) (hv : v ∈ r.values) : v ∈ job.scene.values :=
    Scene.mem_values_of_relationship hn (List.mem_filter.1 hr).1 hv
  have hscope : job.unnamed.scene.topology.relationshipScope n.unnamed.id r =
      job.scene.topology.relationshipScope n.id r := Topology.relationshipScope_unnamed ..
  simp only [injectedBy, hscope, edgeProperty_unnamed hs hvalues]
  rfl

theorem putAttributes_unnamed (hs : job.scene.RefersById) (n : NodeTemplate) (p : NodePlan) :
    putAttributes job.unnamed n.unnamed p = putAttributes job n p := by
  have hprofile : job.unnamed.profile n.unnamed.nodeType = job.profile n.nodeType := rfl
  have hscope : job.unnamed.scene.topology.nodeScope n.unnamed.id =
      job.scene.topology.nodeScope n.id := Topology.nodeScope_unnamed ..
  rw [putAttributes, putAttributes, hprofile]
  refine foldlM_congr (fun p a ha => ?_) p
  obtain ⟨name, v⟩ := a
  cases v with
  | none => rfl
  | some v =>
    have hv : v ∈ job.scene.values := Scene.mem_values_of_profile <|
      List.mem_append_left _ (List.mem_append_right _ (List.mem_filterMap.2 ⟨_, ha, rfl⟩))
    simp only [hscope, putAttribute, resolve_unnamed hs hv]

theorem putCommands_unnamed (hs : job.scene.RefersById) (hn : n ∈ job.scene.topology.nodes)
    (p : NodePlan) : putCommands job.unnamed n.unnamed p = putCommands job n p :=
  putCommands_counterpart (Job.counterpart_unnamed hs) n.counterpart_unnamed hn rfl p

end

end Build

namespace NodePlan

/-- A node plan that shows no name. -/
def unnamed (p : NodePlan) : NodePlan := { p with displayName := "" }

theorem putConfig_unnamed (p : NodePlan) (key : String) (v : PlanValue) :
    p.unnamed.putConfig key v = (p.putConfig key v).unnamed := by
  have htyped : p.unnamed.isTyped key = p.isTyped key := rfl
  rw [putConfig, putConfig, htyped]
  split <;> rfl

theorem putProperties_unnamed (p : NodePlan) (outcomes : List (String × Resolution)) :
    p.unnamed.putProperties outcomes = (p.putProperties outcomes).unnamed := by
  refine List.foldl_hom unnamed fun p o => ?_
  split
  · exact putConfig_unnamed { p with properties := _ } _ _
  · rfl

theorem putEntries_unnamed (p : NodePlan) (entries : List (String × PlanValue)) :
    p.unnamed.putEntries entries = (p.putEntries entries).unnamed :=
  List.foldl_hom unnamed fun p e => putConfig_unnamed p e.1 e.2

theorem setCommands_unnamed (cs : List Contribution) (p : NodePlan) :
    p.unnamed.setCommands cs = (p.setCommands cs).unnamed := by
  refine List.foldl_hom unnamed fun p slot => ?_
  split <;> rfl

end NodePlan

namespace Build

variable (job : Job) (n : NodeTemplate) (p : NodePlan)

theorem putProperties_onto_unnamed : putProperties job n p.unnamed =
    NodePlan.unnamed <$> putProperties job n p := by
  simp only [putProperties, map_bind, map_pure, NodePlan.putProperties_unnamed,
    NodePlan.putEntries_unnamed]

theorem putProvisioning_onto_unnamed :
    putProvisioning job n p.unnamed = (putProvisioning job n p).unnamed := by
  unfold putProvisioning
  split <;> rfl

theorem putInjected_onto_unnamed : putInjected job n p.unnamed =
    NodePlan.unnamed <$> putInjected job n p := by
  simp only [putInjected, map_bind, map_pure, NodePlan.putEntries_unnamed]

theorem putRuntime_onto_unnamed : putRuntime job n p.unnamed =
    NodePlan.unnamed <$> putRuntime job n p := by
  simp only [putRuntime, map_bind, map_pure]
  rfl

theorem putAttributes_onto_unnamed : putAttributes job n p.unnamed =
    NodePlan.unnamed <$> putAttributes job n p := by
  refine foldlM_hom (fun p a => ?_) _ p
  cases a.2 with
  | none => rfl
  | some v =>
    simp only [putAttribute, map_bind]
    refine bind_congr fun outcome => ?_
    cases PlanValue.ofResolution? outcome <;> rfl

theorem putCommands_onto_unnamed : putCommands job n p.unnamed =
    NodePlan.unnamed <$> putCommands job n p := by
  have hidle (noop : String) : p.unnamed.setIdle noop = (p.setIdle noop).unnamed := rfl
  simp only [putCommands, map_bind, map_pure, hidle, NodePlan.setCommands_unnamed]

theorem putScripted_onto_unnamed : putScripted job n p.unnamed =
    NodePlan.unnamed <$> putScripted job n p := by
  simp only [putScripted, putRuntime_onto_unnamed, putAttributes_onto_unnamed,
    putCommands_onto_unnamed, map_bind, bind_map_left, liftM_map]

/-- What is put on a plan is put without looking at the name that the plan shows. -/
theorem complete_onto_unnamed :
    complete job n p.unnamed = NodePlan.unnamed <$> complete job n p := by
  simp only [complete, putProperties_onto_unnamed, liftM_map, bind_map_left,
    putProvisioning_onto_unnamed,
    putInjected_onto_unnamed, map_bind]
  refine bind_congr fun p => bind_congr fun p => ?_
  have hscripted : p.unnamed.scripted = p.scripted := rfl
  rw [hscripted]
  split
  · exact putScripted_onto_unnamed job n p
  · rw [map_pure]

variable {job n}

theorem complete_unnamed (hs : job.scene.RefersById) (hn : n ∈ job.scene.topology.nodes) :
    complete job.unnamed n.unnamed = complete job n := by
  have hprovisioning (p : NodePlan) :
      putProvisioning job.unnamed n.unnamed p = putProvisioning job n p := rfl
  funext p
  simp only [complete, putScripted, putProperties_unnamed hs, hprovisioning,
    putInjected_unnamed hs hn, putRuntime_unnamed, putAttributes_unnamed hs,
    putCommands_unnamed hs hn]

end Build

/-- The factories of a registry make the same of a node under any display name. -/
def Registry.IgnoresNames (r : Registry) : Prop :=
  ∀ (key : String) (f : Factory), r.catalog[key]? = some f ∨ r.natives[key]? = some f →
    ∀ (n : NodeTemplate) (name : Option String), f { n with name := name } = f n

namespace Build

variable {job : Job} {n : NodeTemplate}

theorem choose_unnamed (hr : job.registry.IgnoresNames) (n : NodeTemplate) (children : Nat) :
    job.unnamed.choose n.unnamed children = job.choose n children := by
  have hmaker : job.unnamed.maker? n.unnamed = job.maker? n := rfl
  cases he : job.maker? n with
  | none =>
    rw [Job.choose_of_no_maker he, Job.choose_of_no_maker (hmaker.trans he)]
    rfl
  | some e =>
    obtain ⟨key, hkey⟩ := Job.registered_of_maker he
    have hfactory : e.factory n.unnamed = e.factory n := hr key e.factory hkey n none
    have hid : n.unnamed.id = n.id := rfl
    rw [Job.choose_of_maker he, Job.choose_of_maker (hmaker.trans he), runFactory, runFactory,
      hfactory, hid]

theorem select_unnamed (hr : job.registry.IgnoresNames) (n : NodeTemplate) (children : Nat) :
    NodePlan.unnamed <$> select job.unnamed n.unnamed children =
      NodePlan.unnamed <$> select job n children := by
  simp only [select, choose_unnamed hr, map_bind, map_pure]
  rfl

/-- The plan of a node is the same up to the name it shows. -/
theorem nodePlan_unnamed (hs : job.scene.RefersById) (hr : job.registry.IgnoresNames)
    (id : String) (children : Nat) : NodePlan.unnamed <$> nodePlan job.unnamed id children =
      NodePlan.unnamed <$> nodePlan job id children := by
  have hnode : job.unnamed.scene.topology.node? id =
      (job.scene.topology.node? id).map NodeTemplate.unnamed := Topology.node?_unnamed ..
  rw [nodePlan_eq, nodePlan_eq]
  cases hn : job.scene.topology.node? id with
  | none =>
    rw [hn] at hnode
    rw [template_of_none hn, template_of_none hnode, fail_bind, fail_bind]
  | some n =>
    rw [hn] at hnode
    rw [template_of_some hn, template_of_some hnode]
    simp only [pure_bind, map_bind, ← complete_onto_unnamed,
      complete_unnamed hs (Topology.mem_of_node? hn)]
    rw [← bind_map_left, select_unnamed hr, bind_map_left]

end Build

end DeployPlan
