import DeployPlan.Proofs.Compiler.History
import DeployPlan.Proofs.Naming.Plan
import DeployPlan.Proofs.Scene

/-!
# Compilations under other display names

Where all values refer to nodes by keywords and ids, a compilation does not depend on display names:
it fails alike, records the same, and its plan is the same up to the names shown.
-/
namespace DeployPlan

theorem Scene.mem_values_of_mem_ofTypes {lookup : TypeLookup} {t : Topology} {v : PropertyValue}
    (h : v ∈ (Scene.ofTypes lookup t).values) : v ∈ t.values lookup := by
  rcases List.mem_append.1 h with h | h
  · exact List.mem_append_left _ h
  · obtain ⟨e, he, hv⟩ := List.mem_flatMap.1 h
    obtain ⟨name, hname, rfl⟩ := List.mem_map.1 he
    refine List.mem_append_right _ (List.mem_flatMap.2 ⟨name, by simpa using hname, ?_⟩)
    simp only [profileFor] at hv
    cases hp : lookup name t.dependencies with
    | error f =>
      rw [hp] at hv
      exact absurd hv List.not_mem_nil
    | ok p =>
      rw [hp] at hv
      exact hv

/-- The values of a topology do not depend on display names. -/
theorem Topology.refersById_unnamed (lookup : TypeLookup) (t : Topology) :
    t.unnamed.RefersById lookup ↔ t.RefersById lookup := by
  have hvalues : t.unnamed.values lookup = t.values lookup := by
    rw [values, Scene.usedTypes_unnamed, unnamed, List.flatMap_map]
    rfl
  have hids (v : PropertyValue) : v.RefersById t.unnamed ↔ v.RefersById t := by
    simp only [PropertyValue.RefersById, Identifies, ids_unnamed]
  simp only [RefersById, hvalues, hids]

theorem reported_of_map_eq {x y : Except Failure Plan}
    (h : x.map Plan.unnamed = y.map Plan.unnamed) (pass : Pass) :
    (reported x pass).1.map Plan.unnamed = (reported y pass).1.map Plan.unnamed ∧
      (reported x pass).2 = (reported y pass).2 := by
  cases x with
  | error f =>
    cases y with
    | error g =>
      cases h
      exact ⟨rfl, rfl⟩
    | ok q => cases h
  | ok p =>
    cases y with
    | error g => cases h
    | ok q => exact ⟨h, rfl⟩

/-- A compilation is the same without display names, up to the names shown. -/
theorem compileOnce_unnamed (s : Settings) {env : Surroundings} {t : Topology}
    (ht : t.RefersById env.types) (hr : env.registry.IgnoresNames) :
    (compileOnce s env t.unnamed).1.map Plan.unnamed = (compileOnce s env t).1.map Plan.unnamed ∧
      (compileOnce s env t.unnamed).2 = (compileOnce s env t).2 := by
  have hbuild := Scene.build_unnamed env.types t s.logging.start
  generalize hscene : Scene.build env.types t s.logging.start = x at hbuild
  obtain ⟨f | scene, log⟩ := x
  · rw [compileOnce_of_build_error hscene, compileOnce_of_build_error hbuild]
    exact ⟨rfl, rfl⟩
  · obtain ⟨rfl, -⟩ := Scene.build_ok hscene
    have hs : (Scene.ofTypes env.types t).RefersById := fun v hv =>
      ht v (Scene.mem_values_of_mem_ofTypes hv)
    let job : Job := ⟨.ofTypes env.types t, env.registry, env.files, s⟩
    have hplan : Plan.unnamed <$> Build.taggedPlan job.unnamed =
        Plan.unnamed <$> Build.taggedPlan job := by
      rw [Build.taggedPlan, Build.taggedPlan, Build.map_tagged, Build.map_tagged,
        Build.plan_unnamed hs hr]
    have hrun := congrFun hplan (Pass.start log)
    rw [Build.map_run, Build.map_run] at hrun
    obtain ⟨houtcome, hpass⟩ := Prod.mk.inj hrun
    rw [compileOnce_of_build_ok hscene, compileOnce_of_build_ok hbuild, ← hpass]
    exact reported_of_map_eq houtcome _

namespace Compiler

/-- A compiler without display names. -/
def unnamed (c : Compiler) : Compiler :=
  { c with topology := c.topology.unnamed, compiled := c.compiled.map Plan.unnamed }

variable {c c' : Compiler} {env : Surroundings}

theorem topology_compile (c : Compiler) (env : Surroundings) :
    (c.compile env).2.topology = c.topology := by
  unfold compile
  split
  · rfl
  · split <;> rfl

theorem compile_unnamed (h : c'.unnamed = c.unnamed) (ht : c.topology.RefersById env.types)
    (hr : env.registry.IgnoresNames) :
    (c'.compile env).1.map Plan.unnamed = (c.compile env).1.map Plan.unnamed ∧
      (c'.compile env).2.unnamed = (c.compile env).2.unnamed := by
  obtain ⟨t, s, compiled, diagnostics⟩ := c
  obtain ⟨t', s', compiled', diagnostics'⟩ := c'
  simp only [unnamed, Compiler.mk.injEq] at h
  obtain ⟨htopology, rfl, hcompiled, rfl⟩ := h
  have ht' : t'.RefersById env.types := by
    rw [← Topology.refersById_unnamed, htopology]
    exact (Topology.refersById_unnamed env.types t).2 ht
  obtain ⟨houtcome, hlog⟩ := compileOnce_unnamed s' ht hr
  obtain ⟨houtcome', hlog'⟩ := compileOnce_unnamed s' ht' hr
  rw [htopology] at houtcome' hlog'
  replace houtcome := houtcome'.symm.trans houtcome
  replace hlog := hlog'.symm.trans hlog
  cases compiled with
  | some p =>
    obtain ⟨p', rfl, hp⟩ := Option.map_eq_some_iff.1 hcompiled
    simp only [compile, unnamed, htopology, Option.map_some, hp]
    exact ⟨congrArg Except.ok hp, trivial⟩
  | none =>
    obtain rfl := Option.map_eq_none_iff.1 hcompiled
    simp only [compile]
    generalize compileOnce s' env t = x at houtcome hlog
    generalize compileOnce s' env t' = x' at houtcome hlog
    obtain ⟨f | p, log⟩ := x <;> obtain ⟨f' | p', log'⟩ := x'
    · cases houtcome
      cases hlog
      simp only [unnamed, htopology, Option.map_none, and_self]
    · cases houtcome
    · cases houtcome
    · have hp : p'.unnamed = p.unnamed := Except.ok.inj houtcome
      cases hlog
      simp only [unnamed, htopology, Option.map_some, hp, and_true]
      exact houtcome

theorem after_unnamed {envs : List Surroundings} (h : c'.unnamed = c.unnamed)
    (ht : ∀ env ∈ envs, c.topology.RefersById env.types)
    (hr : ∀ env ∈ envs, env.registry.IgnoresNames) :
    (c'.after envs).unnamed = (c.after envs).unnamed := by
  induction envs generalizing c c' with
  | nil => exact h
  | cons env envs ih =>
    rw [List.forall_mem_cons] at ht hr
    refine ih (compile_unnamed h ht.1 hr.1).2 ?_ hr.2
    rw [topology_compile]
    exact ht.2

/-- Display names never redirect a reference. Let all values refer to nodes by keywords and ids, and
let factories ignore display names. Then topologies that differ in display names only compile alike,
whatever was compiled before: both are refused for the same reason, or their plans are equal up to
the names shown; and what is recorded is the same. -/
theorem compile_of_unnamed_eq {t t' : Topology} (h : t'.unnamed = t.unnamed) (s : Settings)
    (envs : List Surroundings) (env : Surroundings)
    (href : ∀ e ∈ env :: envs, t.RefersById e.types)
    (hfactories : ∀ e ∈ env :: envs, e.registry.IgnoresNames) :
    (((start t' s).after envs).compile env).1.map Plan.unnamed =
        (((start t s).after envs).compile env).1.map Plan.unnamed ∧
      (((start t' s).after envs).compile env).2.diagnostics =
        (((start t s).after envs).compile env).2.diagnostics := by
  rw [List.forall_mem_cons] at href hfactories
  have hstart : (start t' s).unnamed = (start t s).unnamed := by
    simp only [start, unnamed, h]
  have hafter := after_unnamed hstart href.2 hfactories.2
  have htopology : ((start t s).after envs).topology = t :=
    ((reached_start t s).after envs).topology
  have hknown : ((start t s).after envs).topology.RefersById env.types := by
    rw [htopology]
    exact href.1
  obtain ⟨houtcome, hcompiler⟩ := compile_unnamed hafter hknown hfactories.1
  have hdiagnostics := congrArg diagnostics hcompiler
  exact ⟨houtcome, hdiagnostics⟩

/-- A shop whose address names the database by its id, on one machine. -/
def namedShop : Topology where
  name := "shop"
  nodes := [
    ⟨"web", "Web", none, some "Web front",
      NameMap.ofEntries [("url", .concat [.scalar "db:",
        .call ⟨"get_property", ["db", "port"]⟩])],
      ["host"], [⟨"web_host", "host", "vm", hostedOn, ∅, []⟩], [], []⟩,
    ⟨"db", "Database", none, none, NameMap.ofEntries [("port", .scalar "5432"),
      ("at", .call ⟨"get_attribute", ["HOST", "address"]⟩)],
      ["host"], [⟨"db_host", "host", "vm", hostedOn, ∅, []⟩], [], []⟩,
    ⟨"vm", "Machine", none, none, ∅, [], [], [], []⟩]
  groups := []
  dependencies := []
  archive := none

/-- The shop with its front named like the database and its machine like a keyword. -/
def misnamedShop : Topology :=
  { namedShop with nodes := namedShop.nodes.map fun n =>
      { n with name := if n.id = "web" then some "db" else some "HOST" } }

/-- Names that collide with an id and with a keyword do not change the plan of the shop. -/
theorem compile_misnamedShop : misnamedShop.unnamed = namedShop.unnamed ∧
    namedShop.RefersById bareSurroundings.types ∧ bareSurroundings.registry.IgnoresNames ∧
    ∃ p p', ((start namedShop (.initial ⟨none, none⟩)).compile bareSurroundings).1 = .ok p ∧
      ((start misnamedShop (.initial ⟨none, none⟩)).compile bareSurroundings).1 = .ok p' ∧
      p'.unnamed = p.unnamed := by
  have hsame : misnamedShop.unnamed = namedShop.unnamed := rfl
  have href : namedShop.RefersById bareSurroundings.types := by decide +kernel
  have hfactories : bareSurroundings.registry.IgnoresNames := fun key f hf => by
    simp [bareSurroundings, Registry.empty] at hf
  refine ⟨hsame, href, hfactories, ?_⟩
  have hok : ((start namedShop (.initial ⟨none, none⟩)).compile
      bareSurroundings).1.isOk = true := by
    decide +kernel
  have hcompile := (compile_of_unnamed_eq hsame (.initial ⟨none, none⟩) [] bareSurroundings
    (by simpa using href) (by simpa using hfactories)).1
  simp only [after, List.foldl_nil] at hcompile
  obtain ⟨p, hp⟩ := exists_ok_of_isOk hok
  rw [hp] at hcompile
  generalize ((start misnamedShop (.initial ⟨none, none⟩)).compile bareSurroundings).1 = x'
    at hcompile ⊢
  cases x' with
  | error f => cases hcompile
  | ok p' => exact ⟨p, p', hp, rfl, Except.ok.inj hcompile⟩

end Compiler

end DeployPlan
