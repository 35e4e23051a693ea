import DeployPlan.Proofs.Naming.NodePlan
import DeployPlan.Proofs.Plan.Forest

/-!
# Plans without display names

Trees of node plans are built, and decorated by groups, without looking at the names shown. So a job
without display names has the same plan up to these names.
-/
namespace DeployPlan

def Plan.unnamed (p : Plan) : Plan := { p with roots := p.roots.map (Tree.map NodePlan.unnamed) }

namespace Plan

variable {f : NodePlan → NodePlan}

theorem find?_unnamed (p : Plan) (id : String) :
    p.unnamed.find? id = (p.find? id).map (Tree.map NodePlan.unnamed) := by
  have hid (n : NodePlan) : hasId id n.unnamed = hasId id n := rfl
  rw [find?, unnamed, ← Tree.mapAll_eq_map, Tree.findIn?_mapAll hid, find?]

theorem updateNode_unnamed (hf : ∀ n : NodePlan, f n.unnamed = (f n).unnamed) (p : Plan)
    (id : String) : p.unnamed.updateNode f id = (p.updateNode f id).unnamed := by
  have hid (n : NodePlan) : hasId id n.unnamed = hasId id n := rfl
  have hlabel (t : PlanTree) : Tree.mapLabel f (Tree.map NodePlan.unnamed t) =
      Tree.map NodePlan.unnamed (Tree.mapLabel f t) := by
    cases t
    simp only [Tree.map, Tree.mapLabel, hf]
  have hroots : Tree.updateIn? (hasId id) (Tree.mapLabel f) p.unnamed.roots =
      (Tree.updateIn? (hasId id) (Tree.mapLabel f) p.roots).map
        (List.map (Tree.map NodePlan.unnamed)) := by
    rw [unnamed, ← Tree.mapAll_eq_map, Tree.updateIn?_mapAll hid hlabel]
  rw [updateNode, updateNode, update, update, update?, update?, hroots]
  cases Tree.updateIn? (hasId id) (Tree.mapLabel f) p.roots <;> rfl

theorem updateNodes_unnamed (hf : ∀ n : NodePlan, f n.unnamed = (f n).unnamed) (p : Plan)
    (ids : List String) : p.unnamed.updateNodes ids f = (p.updateNodes ids f).unnamed :=
  List.foldl_hom unnamed fun p id => updateNode_unnamed hf p id

theorem setLocations_unnamed (p : Plan) (ids : List String) (locations : List Json) :
    p.unnamed.setLocations ids locations = (p.setLocations ids locations).unnamed := by
  let f (n : NodePlan) : NodePlan := { n with locations := locations }
  have hf (n : NodePlan) : f n.unnamed = (f n).unnamed := rfl
  exact updateNodes_unnamed hf p ids

theorem attach_unnamed (p : Plan) (ids : List String) (b : Behavior) :
    p.unnamed.attach ids b = (p.attach ids b).unnamed := by
  unfold attach
  split
  · rfl
  · let f (n : NodePlan) : NodePlan := { n with behaviors := n.behaviors ++ [b] }
    have hf (n : NodePlan) : f n.unnamed = (f n).unnamed := rfl
    exact updateNodes_unnamed hf p ids

theorem nodeCount_unnamed (p : Plan) : p.unnamed.nodeCount = p.nodeCount := by
  rw [nodeCount, nodeCount, ← Tree.length_labelsOf, unnamed, Tree.labelsOf_map, List.length_map,
    Tree.length_labelsOf]

end Plan

namespace Group

variable (g : Group) (r : Registry)

theorem strayMember?_unnamed (p : Plan) : g.strayMember? p.unnamed = g.strayMember? p := by
  simp only [strayMember?, Plan.find?_unnamed, Option.isNone_map]

theorem applyPolicy_unnamed (policy : Policy) (p : Plan) (log : Log) :
    g.applyPolicy r policy p.unnamed log =
      ((g.applyPolicy r policy p log).1.map Plan.unnamed, (g.applyPolicy r policy p log).2) := by
  unfold applyPolicy
  cases policy.kind with
  | location =>
    simp only [Plan.setLocations_unnamed]
    rfl
  | behavior =>
    cases g.behaviorType policy with
    | error f => rfl
    | ok t =>
      simp only [Plan.attach_unnamed]
      rfl

theorem applyPolicies_unnamed (policies : List Policy) (p : Plan) (log : Log) :
    g.applyPolicies r policies p.unnamed log =
      ((g.applyPolicies r policies p log).1.map Plan.unnamed,
        (g.applyPolicies r policies p log).2) := by
  induction policies generalizing p log with
  | nil => rfl
  | cons policy rest ih =>
    rw [applyPolicies, applyPolicies, applyPolicy_unnamed]
    generalize g.applyPolicy r policy p log = out
    obtain ⟨_ | p, log⟩ := out
    · rfl
    · exact ih p log

theorem decorate_unnamed (p : Plan) (log : Log) : g.decorate r p.unnamed log =
    ((g.decorate r p log).1.map Plan.unnamed, (g.decorate r p log).2) := by
  unfold decorate
  rw [strayMember?_unnamed]
  split
  · rfl
  · exact applyPolicies_unnamed g r g.policies p log

end Group

/-- Groups decorate plans without looking at the names shown. -/
theorem Plan.decorate_unnamed (r : Registry) (groups : List Group) (p : Plan) (log : Log) :
    Plan.decorate r groups p.unnamed log =
      ((Plan.decorate r groups p log).1.map Plan.unnamed, (Plan.decorate r groups p log).2) := by
  induction groups generalizing p log with
  | nil => rfl
  | cons g groups ih =>
    rw [Plan.decorate, Plan.decorate, Group.decorate_unnamed]
    generalize g.decorate r p log = out
    obtain ⟨_ | p, log⟩ := out
    · rfl
    · exact ih p log

namespace Build

/-- A tree of names not shown is made of parts of names not shown. -/
theorem map_node (x : Build NodePlan) (below : Build (List PlanTree)) :
    (Tree.map NodePlan.unnamed <$> do
      let p ← x
      let children ← below
      return .node p children) = do
        let p ← NodePlan.unnamed <$> x
        let children ← List.map (Tree.map NodePlan.unnamed) <$> below
        return .node p children := by
  simp only [map_bind, map_pure, bind_map_left, Tree.map, Tree.mapAll_eq_map]

theorem map_cons (x : Build PlanTree) (xs : Build (List PlanTree)) :
    (List.map (Tree.map NodePlan.unnamed) <$> do
      let first ← x
      let rest ← xs
      return first :: rest) = do
        let first ← Tree.map NodePlan.unnamed <$> x
        let rest ← List.map (Tree.map NodePlan.unnamed) <$> xs
        return first :: rest := by
  simp only [map_bind, map_pure, bind_map_left, List.map_cons]

variable {job : Job}

mutual

/-- The tree of node plans is the same up to the names shown. -/
theorem treeOver_unnamed (hs : job.scene.RefersById) (hr : job.registry.IgnoresNames)
    (g : Containment) (t : Tree String) :
    Tree.map NodePlan.unnamed <$> treeOver job.unnamed g t =
      Tree.map NodePlan.unnamed <$> treeOver job g t := by
  match t with
  | .node id below =>
    have hbelow := treesOver_unnamed hs hr g below
    have hnode := nodePlan_unnamed hs hr id (g.childCount id)
    rw [treeOver, treeOver, map_tagged, map_tagged, map_node, map_node, hnode, hbelow]

theorem treesOver_unnamed (hs : job.scene.RefersById) (hr : job.registry.IgnoresNames)
    (g : Containment) (ts : List (Tree String)) :
    List.map (Tree.map NodePlan.unnamed) <$> treesOver job.unnamed g ts =
      List.map (Tree.map NodePlan.unnamed) <$> treesOver job g ts := by
  match ts with
  | [] => rfl
  | t :: ts =>
    have hfirst := treeOver_unnamed hs hr g t
    have hrest := treesOver_unnamed hs hr g ts
    rw [treesOver, treesOver, map_cons, map_cons, hfirst, hrest]

end

theorem forest_unnamed (hs : job.scene.RefersById) (hr : job.registry.IgnoresNames)
    (ids : List String) (g : Containment) (visited : List String) :
    List.map (Tree.map NodePlan.unnamed) <$> forest job.unnamed ids g visited =
      List.map (Tree.map NodePlan.unnamed) <$> forest job ids g visited := by
  induction ids generalizing g visited with
  | nil => rfl
  | cons id ids ih =>
    rw [forest_cons, forest_cons, map_bind, map_bind]
    refine bind_congr fun root => ?_
    split
    · exact ih (g.root id).2 visited
    · rw [map_cons, map_cons, treeOver_unnamed hs hr, ih]

theorem checkTargets_unnamed (t : Topology) : checkTargets t.unnamed = checkTargets t := by
  have hstray : strayTarget? t.unnamed = strayTarget? t := by
    have hnodes : t.unnamed.nodes = t.nodes.map NodeTemplate.unnamed := rfl
    simp only [strayTarget?, Topology.has_unnamed, hnodes, List.findSome?_map]
    rfl
  rw [checkTargets, checkTargets, hstray]

/-- A plan is finished without looking at the names shown. -/
theorem finish_onto_unnamed (job : Job) (roots : List PlanTree) :
    finish job (roots.map (Tree.map NodePlan.unnamed)) = Plan.unnamed <$> finish job roots := by
  have hdecorate (p : Plan) :
      onLog (Plan.decorate job.registry job.scene.topology.groups p.unnamed) =
        Plan.unnamed <$> onLog (Plan.decorate job.registry job.scene.topology.groups p) := by
    funext q
    rw [map_run, onLog, onLog, Plan.decorate_unnamed]
  have hroots (p : Plan) : p.unnamed.roots.length = p.roots.length := List.length_map _
  have hplan : (⟨job.scene.topology.name, roots.map (Tree.map NodePlan.unnamed), []⟩ : Plan) =
      Plan.unnamed ⟨job.scene.topology.name, roots, []⟩ := rfl
  simp only [finish, hplan, hdecorate, map_bind, map_pure, bind_map_left, hroots,
    Plan.nodeCount_unnamed]

/-- The plan is the same up to the names shown. -/
theorem plan_unnamed (hs : job.scene.RefersById) (hr : job.registry.IgnoresNames) :
    Plan.unnamed <$> plan job.unnamed = Plan.unnamed <$> plan job := by
  have hbuild : Containment.build job.unnamed.scene.topology =
      Containment.build job.scene.topology := funext fun log => Containment.build_unnamed _ log
  have htargets : checkTargets job.unnamed.scene.topology = checkTargets job.scene.topology :=
    checkTargets_unnamed _
  have hfinish : finish job.unnamed = finish job := rfl
  simp only [plan_eq, hbuild, htargets, hfinish, map_bind, ← finish_onto_unnamed]
  refine bind_congr fun g => bind_congr fun _ => ?_
  rw [← bind_map_left, forest_unnamed hs hr, bind_map_left]

end Build

end DeployPlan
