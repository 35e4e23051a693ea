import DeployPlan.Proofs.Compiler.Failure
import DeployPlan.Proofs.Evaluation.Order

/-!
# The config of compiled nodes

In a plan that compiles, the config of each node is what its implementation, its properties, its
artifacts and its relationships give, joined in this order; no key is lost or in the wrong map.
-/
namespace DeployPlan

namespace Scene

variable {s : Scene} {id name : String}

theorem mem_propertyNames_iff : name ∈ s.propertyNames id ↔ s.declared? ⟨id, name⟩ ≠ none := by
  unfold propertyNames declared? rawProperty?
  cases s.topology.node? id with
  | none => simp
  | some n =>
    rw [Std.ExtTreeMap.mem_keys, Std.ExtTreeMap.mem_iff_isSome_getElem?,
      NameMap.getElem?_overlay, Option.isSome_iff_ne_none]

theorem nodup_propertyNames (s : Scene) (id : String) : (s.propertyNames id).Nodup := by
  unfold propertyNames
  split
  · exact List.nodup_nil
  · exact Std.ExtTreeMap.nodup_keys

end Scene

namespace Job

variable {job : Job} {n : NodeTemplate}

/-- The resolved property of a node under a name, when everything has been read. -/
def resolved? (job : Job) (n : NodeTemplate) (name : String) : Option PlanValue :=
  PlanValue.ofResolution? (Eval.nodeProperty job.scene ⟨n.id, name⟩ job.lastPass).1

/-- The values that are put under a config key of a node: what its implementation has set, its
resolved property, the reference of its artifact, and what its relationships write in order. -/
def configValues (job : Job) (n : NodeTemplate) (i : Implementation) (key : String) :
    List PlanValue :=
  i.config[key]?.toList ++ (job.resolved? n key).toList ++
    Entries.valuesUnder key n.artifactEntries ++
    Entries.valuesUnder key (job.injectedEntries job.lastPass n)

theorem done_lastPass (hn : n ∈ job.scene.topology.buildOrder) (name : String) :
    job.scene.Done [] job.lastPass.memo ⟨n.id, name⟩ := by
  by_cases hname : name ∈ job.scene.propertyNames n.id
  · refine (Pass.start_reaches job job.settings.logging.start).done ?_
    refine List.mem_flatMap.2 ⟨n, hn, List.mem_flatMap.2 ⟨.properties n.id, ?_, ?_⟩⟩
    · exact List.mem_append_left _ List.mem_cons_self
    · exact List.mem_map_of_mem hname
  · exact .inr (.inr (not_not.1 fun hne => hname (Scene.mem_propertyNames_iff.2 hne)))

/-- At the end a property of a node has the outcome that is remembered for it. -/
theorem resolved?_eq (hn : n ∈ job.scene.topology.buildOrder) (name : String) :
    job.resolved? n name =
      PlanValue.ofResolution? (Memo.answer job.lastPass.memo ⟨n.id, name⟩) := by
  have hends := (Pass.start_reaches job job.settings.logging.start).ends
  obtain ⟨-, -, hval⟩ := (Eval.visits_nodeProperty job.scene [] ⟨n.id, name⟩).run _ hends
  rw [resolved?, hval, Scene.answer_visitAll_of_done (done_lastPass hn name)]

/-- A property that is not declared is not resolved. -/
theorem resolved?_of_undeclared (hn : n ∈ job.scene.topology.buildOrder) {name : String}
    (h : name ∉ job.scene.propertyNames n.id) : job.resolved? n name = none := by
  have hundeclared : job.scene.declared? ⟨n.id, name⟩ = none :=
    not_not.1 fun hne => h (Scene.mem_propertyNames_iff.2 hne)
  have hmemo := (Pass.start_reaches job job.settings.logging.start).memo
  have hunknown : ¬ Memo.Knows job.lastPass.memo ⟨n.id, name⟩ := by
    rw [← hmemo]
    exact Scene.coherent_nil.visitAll.not_knows (.inr hundeclared)
  rw [resolved?_eq hn, Memo.answer_of_not_knows hunknown]
  rfl

/-- The outcomes that are remembered make one entry for each resolved property. -/
theorem valuesUnder_outcomes (hn : n ∈ job.scene.topology.buildOrder) (key : String) :
    Entries.valuesUnder key (resolvedEntries (job.outcomes job.lastPass n)) =
      (job.resolved? n key).toList := by
  rw [resolvedEntries, outcomes, List.filterMap_map]
  refine (Entries.valuesUnder_filterMap (job.scene.nodup_propertyNames n.id) _).trans ?_
  split
  · rw [resolved?_eq hn]
  · next h => rw [resolved?_of_undeclared hn h, Option.toList_none]

/-- An assembled plan has the values of each key joined in the map that the key belongs to. -/
theorem Assembles.holds_configValues {p : NodePlan} (h : job.Assembles job.lastPass n p)
    (hn : n ∈ job.scene.topology.buildOrder) :
    ∃ i, job.implementation? n = some i ∧ ∀ key,
      p.Holds key (i.types key) (job.resolved? n key) (job.configValues n i key) := by
  obtain ⟨-, i, hi, hholds⟩ := h
  refine ⟨i, hi, fun key => ?_⟩
  have hkey := hholds key
  rw [valuesUnder_outcomes hn] at hkey
  have hlast : (job.resolved? n key).toList.getLast? = job.resolved? n key := by
    cases job.resolved? n key <;> rfl
  rwa [hlast] at hkey

end Job

namespace Compiler

def job (c : Compiler) (env : Surroundings) : Job := .of c.settings env c.topology

variable {c : Compiler} {env : Surroundings} {p : Plan}

/-- A plan that is compiled has an assembled plan for each of its nodes. -/
theorem assemblesOne_of_compile (hfresh : c.compiled = none)
    (h : (c.compile env).1 = .ok p) : ∀ q ∈ Tree.labelsOf p.roots,
      (c.job env).AssemblesOne (c.job env).lastPass c.topology.buildOrder q := by
  rw [compile_of_not_compiled hfresh] at h
  generalize hscene : Scene.build env.types c.topology c.settings.logging.start = out
  obtain ⟨f | scene, log⟩ := out
  · rw [compileOnce_of_build_error hscene] at h
    cases h
  · obtain ⟨rfl, -⟩ := Scene.build_ok hscene
    rw [compileOnce_of_build_ok hscene, reported_fst] at h
    obtain ⟨log₁, log₂, htagged⟩ := Build.tagged_run Build.passTags (Build.plan (c.job env))
      (Pass.start log)
    have hplan : (Build.taggedPlan (c.job env) (Pass.start log)).1 = .ok p := h
    rw [Build.taggedPlan, htagged] at hplan
    exact Build.assemblesOne_of_plan (Pass.start_reaches (c.job env) log₁) (Prod.ext hplan rfl)

/-- The config of every node of a plan loses nothing and is routed by its implementation. Under each
key it is all that was put there, joined in order, and the key is absent when nothing was; the key
is in the typed config if the implementation declares or has set it, and else passes through; the
properties are the resolved ones. Whatever is put on a new plan, no key is in both maps. -/
theorem config_of_compile (hfresh : c.compiled = none)
    (h : (c.compile env).1 = .ok p) :
    (∀ q ∈ Tree.labelsOf p.roots, ∃ n ∈ c.topology.nodes, q.id = n.id ∧
      (∀ r ∈ Build.injecting (c.job env) n,
        ((c.job env).injected? (c.job env).lastPass n r).isSome) ∧
      ∃ i, (c.job env).implementation? n = some i ∧ ∀ key,
        q.effectiveConfig[key]? = PlanValue.joinAll? ((c.job env).configValues n i key) ∧
        (q.effectiveConfig[key]? = none ↔ (c.job env).configValues n i key = []) ∧
        q.config[key]? = (if i.types key then q.effectiveConfig[key]? else none) ∧
        q.passthrough[key]? = (if i.types key then none else q.effectiveConfig[key]?) ∧
        q.properties[key]? = (c.job env).resolved? n key) ∧
    ∀ (kind : ImplementationKind) (i : Implementation) (entries : List (String × PlanValue))
      (key : String), ((NodePlan.start kind i).putEntries entries).config[key]? = none ∨
        ((NodePlan.start kind i).putEntries entries).passthrough[key]? = none := by
  refine ⟨fun q hq => ?_, fun kind i entries key =>
    ((NodePlan.Holds.start kind i key).putEntries entries).disjoint⟩
  obtain ⟨n, hn, hid, hassembles⟩ := assemblesOne_of_compile hfresh h q hq
  obtain ⟨i, hi, hholds⟩ := hassembles.holds_configValues hn
  refine ⟨n, Topology.mem_nodes_of_mem_nodesBelow hn, hid, hassembles.written, i, hi,
    fun key => ?_⟩
  have heffective := (hholds key).effectiveConfig
  refine ⟨heffective, ?_, ?_, ?_, (hholds key).property⟩
  · rw [heffective, PlanValue.joinAll?_eq_none_iff]
  · rw [heffective, (hholds key).config]
  · rw [heffective, (hholds key).passthrough]

/-- A front whose options are a property, an artifact and the target of two relationships at once.
-/
def tunedFront : Topology where
  name := "shop"
  nodes := [
    ⟨"front", "Web", none, none,
      .ofEntries [("opts", .list [.str "own"]), ("theme", .scalar "dark")], ["store", "cache"],
      [⟨"front_store", "store", "store", injectProperty,
        .ofEntries [("prop.collection", .scalar "opts"), ("prop.value", .scalar "store")], []⟩,
      ⟨"front_cache", "cache", "store", injectProperty,
        .ofEntries [("prop.collection", .scalar "opts"), ("prop.value", .scalar "cache")], []⟩],
      [], [("opts", .ofReference "opts.tar")]⟩,
    ⟨"store", "Store", none, none, ∅, [], [], [], []⟩]
  groups := []
  dependencies := []
  archive := none

def presetOptions : Implementation :=
  ⟨[], .ofEntries [("opts", .literal (.arr [.str "preset"]))], false⟩

def presetSurroundings : Surroundings :=
  { bareSurroundings with registry := Registry.empty.register "Web" fun _ => .ok presetOptions }

/-- The options are in the typed config, where the artifact has replaced what was set and the two
relationships have written a list over it; the theme passes through. -/
theorem config_tunedFront : (start tunedFront (.initial ⟨none, none⟩)).compiled = none ∧
    ∃ p, ((start tunedFront (.initial ⟨none, none⟩)).compile presetSurroundings).1 = .ok p ∧
      ∃ q ∈ Tree.labelsOf p.roots, q.id = "front" ∧
        q.config["opts"]? = some (.literal (.arr [.str "store", .str "cache"])) ∧
        q.passthrough["opts"]? = none ∧
        q.passthrough["theme"]? = some (.ofText "dark") ∧
        q.properties["opts"]? = some (.literal (.arr [.str "own"])) := by
  have hids : tunedFront.ids.Nodup := by decide
  have hfront : ((start tunedFront (.initial ⟨none, none⟩)).compile
      presetSurroundings).1.toOption.map (fun p => (Tree.labelsOf p.roots).map (·.id)) =
        some ["front", "store"] := by
    decide +kernel
  refine ⟨rfl, ?_⟩
  obtain ⟨p, hp, hlabels⟩ := Option.map_eq_some_iff.1 hfront
  have hok := eq_ok_of_toOption hp
  obtain ⟨q, hq, hid⟩ := List.mem_map.1 (hlabels ▸ List.mem_cons_self : "front" ∈ _)
  refine ⟨p, hok, q, hq, hid, ?_⟩
  obtain ⟨n, hn, hqn, -, i, hi, hconfig⟩ := (config_of_compile rfl hok).1 q hq
  obtain rfl : n = tunedFront.nodes.head (by decide) := by
    refine List.inj_on_of_nodup_map hids hn (List.head_mem _) ?_
    rw [← hqn, hid]
    rfl
  have himplementation : ((start tunedFront (.initial ⟨none, none⟩)).job
      presetSurroundings).implementation? (tunedFront.nodes.head (by decide)) =
        some presetOptions := by
    decide +kernel
  obtain rfl : i = presetOptions := Option.some.inj (hi.symm.trans himplementation)
  obtain ⟨hopts, -, hconfigopts, hpassopts, hpropopts⟩ := hconfig "opts"
  obtain ⟨htheme, -, -, hpasstheme, -⟩ := hconfig "theme"
  refine ⟨?_, ?_, ?_, ?_⟩
  · rw [hconfigopts, hopts]
    decide +kernel
  · rw [hpassopts, if_pos (by decide +kernel)]
  · rw [hpasstheme, htheme]
    decide +kernel
  · rw [hpropopts]
    decide +kernel

end Compiler

end DeployPlan
