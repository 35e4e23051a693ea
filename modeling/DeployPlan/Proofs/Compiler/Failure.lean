import DeployPlan.Proofs.Compiler.History
import DeployPlan.Proofs.Plan.Faults
import DeployPlan.Proofs.Scene
import DeployPlan.Proofs.TypeCatalog.Derivation

/-!
# Why a compilation fails

A topology compiles when its types can be looked up and nothing is wrong with its nodes and groups.
Otherwise the failure reports one of the things that are wrong, and nothing is kept.
-/
namespace DeployPlan

/-- The job of a topology whose types can be looked up. -/
def Job.of (s : Settings) (env : Surroundings) (t : Topology) : Job :=
  ⟨Scene.ofTypes env.types t, env.registry, env.files, s⟩

/-- The profile of a type that the topology uses is the one that is looked up. -/
theorem Job.profile_of {s : Settings} {env : Surroundings} {t : Topology} {typeName : String}
    {p : TypeProfile} (hused : typeName ∈ Scene.usedTypes t)
    (h : env.types typeName t.dependencies = .ok p) : (Job.of s env t).profile typeName = p := by
  rw [Job.profile, Job.of, Scene.profile_ofTypes, if_pos hused, Scene.profileFor, h]
  rfl

/-- The pass that answers what the plans of all nodes ask for, in the order in which they are
built. -/
def Job.lastPass (job : Job) : Pass :=
  job.scene.after job.settings.logging.start (job.scene.topology.buildOrder.flatMap job.queries)

/-- All that has to hold for a topology to compile. -/
structure Compilable (s : Settings) (env : Surroundings) (t : Topology) : Prop where
  /-- All types that are used can be looked up. -/
  types : ∀ name ∈ Scene.usedTypes t, ∃ p, env.types name t.dependencies = .ok p
  /-- Nodes are placed on declared ones. -/
  hosts : ∀ n ∈ t.nodes, ∀ parent, n.hostParent? = some parent → parent ∈ t.ids
  /-- Relationships lead to declared nodes. -/
  targets : ∀ n ∈ t.nodes, ∀ r ∈ n.relationships, r.target ∈ t.ids
  /-- No node is placed on itself, directly or through others. -/
  acyclic : ∀ id, ¬ Relation.TransGen t.PlacedOn id id
  /-- The factories that are to make implementations do. -/
  implementations : ∀ n ∈ t.nodes, ∀ m, (Job.of s env t).maker? n = some m →
    ∃ i, m.factory n = .ok i
  /-- Relationships that write a value name where. -/
  injections : ∀ n ∈ t.nodes, ∀ r ∈ Build.injecting (Job.of s env t) n,
    Text.isBlank ((Job.of s env t).edgeText (Job.of s env t).lastPass n r "prop.name") = false ∨
      Text.isBlank ((Job.of s env t).edgeText (Job.of s env t).lastPass n r "prop.collection") =
        false
  /-- The scripts that contribute to commands can be read. -/
  scripts : ∀ n ∈ t.nodes, (Job.of s env t).scripted n = true →
    ∀ c ∈ Contributor.all (Job.of s env t) n, ∃ body, (Job.of s env t).script c.artifact = .ok body
  /-- Members of groups are declared. -/
  members : ∀ g ∈ t.groups, ∀ id ∈ g.members, id ∈ t.ids
  /-- Behaviours have a type that is not blank. -/
  behaviors : ∀ g ∈ t.groups, ∀ policy ∈ g.policies, policy.kind = .behavior →
    ∃ name, policy.behaviorType = some name ∧ Text.isBlank name = false

/-- What keeps a topology from compiling, and the failure that reports it. -/
inductive CompileFault (s : Settings) (env : Surroundings) (t : Topology) : Failure → Prop
  /-- A type that is used cannot be looked up. -/
  | type {name : String} {f : Failure} (used : name ∈ Scene.usedTypes t)
      (refused : env.types name t.dependencies = .error f) : CompileFault s env t f
  /-- Something is wrong with the topology. -/
  | plan {f : Failure} (fault : PlanFault (Job.of s env t) (Job.of s env t).lastPass f) :
      CompileFault s env t f

section

variable {s : Settings} {env : Surroundings} {t : Topology}

/-- A topology is compilable when nothing is wrong with it. -/
theorem compilable_iff : Compilable s env t ↔ ∀ f, ¬ CompileFault s env t f := by
  constructor
  · intro h f hf
    cases hf with
    | type hused hrefused => exact exists_ok_iff.1 (h.types _ hused) _ hrefused
    | plan hfault =>
      have hnodes (n : NodeTemplate) (hn : n ∈ t.nodes) :=
        not_nodeFault_iff.2 ⟨h.implementations n hn, h.injections n hn, h.scripts n hn⟩
      have hgroups (g : Group) (hg : g ∈ t.groups) :=
        not_groupFault_iff.2 ⟨h.members g hg, h.behaviors g hg⟩
      exact not_planFault_iff.2 ⟨h.hosts, h.targets, h.acyclic, hnodes, hgroups⟩ f hfault
  · intro h
    obtain ⟨hhosts, htargets, hacyclic, hnodes, hgroups⟩ :=
      not_planFault_iff.1 fun f hf => h f (.plan hf)
    constructor
    case types => exact fun name hname => exists_ok_iff.2 fun f hf => h f (.type hname hf)
    case hosts => exact hhosts
    case targets => exact htargets
    case acyclic => exact hacyclic
    case implementations => exact fun n hn => (not_nodeFault_iff.1 (hnodes n hn)).1
    case injections => exact fun n hn => (not_nodeFault_iff.1 (hnodes n hn)).2.1
    case scripts => exact fun n hn => (not_nodeFault_iff.1 (hnodes n hn)).2.2
    case members => exact fun g hg => (not_groupFault_iff.1 (hgroups g hg)).1
    case behaviors => exact fun g hg => (not_groupFault_iff.1 (hgroups g hg)).2

/-- A build starts on its way to the pass that answers all questions. -/
theorem Pass.start_reaches (job : Job) (log : Log) :
    (Pass.start log).Reaches job.scene
      (job.scene.topology.buildOrder.flatMap job.readings ++ []) job.lastPass := by
  obtain ⟨hrests, hmemo⟩ := job.scene.after_eq_visitAll job.settings.logging.start
    (job.scene.topology.buildOrder.flatMap job.queries)
  refine ⟨rfl, hrests, ?_⟩
  rw [Job.lastPass, hmemo, List.append_nil, List.flatMap_assoc]
  rfl

/-- A build that succeeds met nothing wrong and has answered all questions; one that fails reports
what is wrong. -/
theorem planFault_of_taggedPlan (job : Job) (hids : job.scene.topology.ids.Nodup) (log : Log) :
    (∀ p, (Build.taggedPlan job (Pass.start log)).1 = .ok p →
      (Build.taggedPlan job (Pass.start log)).2.memo = job.lastPass.memo ∧
      ∀ f, ¬ PlanFault job job.lastPass f) ∧
    ∀ f, (Build.taggedPlan job (Pass.start log)).1 = .error f → PlanFault job job.lastPass f := by
  have hchecks : Build.Checks job.scene job.lastPass
      (job.scene.topology.buildOrder.flatMap job.readings) (PlanFault job job.lastPass)
      (fun _ => True) (Build.taggedPlan job) := (Build.checks_plan hids).tagged
  have hstart := Pass.start_reaches job log
  refine ⟨fun p hp => ?_, fun f hf => hchecks.error hstart (Prod.ext hf rfl)⟩
  obtain ⟨hend, -, hnone⟩ := hchecks.ok hstart (Prod.ext hp rfl)
  exact ⟨hend.memo, hnone⟩

theorem compileFault_of_compileOnce (s : Settings) (env : Surroundings) (hids : t.ids.Nodup) :
    (∀ p, (compileOnce s env t).1 = .ok p → ∀ f, ¬ CompileFault s env t f) ∧
    ∀ f, (compileOnce s env t).1 = .error f → CompileFault s env t f := by
  generalize hscene : Scene.build env.types t s.logging.start = out
  obtain ⟨g | scene, log⟩ := out
  · obtain ⟨name, hname, hrefused⟩ := Scene.build_error hscene
    rw [compileOnce_of_build_error hscene]
    refine ⟨nofun, fun f hf => ?_⟩
    cases hf
    exact .type hname hrefused
  · obtain ⟨rfl, htypes⟩ := Scene.build_ok hscene
    obtain ⟨hok, herror⟩ := planFault_of_taggedPlan (Job.of s env t) hids log
    rw [compileOnce_of_build_ok hscene, reported_fst]
    refine ⟨fun p hp f hf => ?_, fun f hf => .plan (herror f hf)⟩
    cases hf with
    | type hused hrefused =>
      obtain ⟨profile, hprofile⟩ := htypes _ hused
      rw [hprofile] at hrefused
      cases hrefused
    | plan hfault => exact (hok p hp).2 f hfault

end

/-- The look-up of a type in a catalog is refused exactly when its chain of ancestors comes back to
a name. -/
theorem TypeCatalog.lookup_eq_ok_iff (c : TypeCatalog) (dependencies : List Coordinates)
    (name : String) :
    (∃ p, c.lookup name dependencies = .ok p) ↔ ¬ c.Revisits dependencies name := by
  rw [← climb_eq_error_iff, lookup]
  cases c.climb dependencies (c.definitions.length + 1) [name] name with
  | error met => simp
  | ok found => simp

namespace Compiler

/-- The only outcomes of a first compilation of a topology of distinct ids. It succeeds exactly when
the topology is compilable, and its build ends with what the properties of relationships are told
from. Otherwise it fails with something that is wrong, and keeps no plan. In a catalog the types
that can be looked up are those whose ancestors do not come back to a name. -/
theorem compile_eq_ok_iff_compilable {t : Topology} (hids : t.ids.Nodup) (s : Settings)
    (env : Surroundings) :
    ((∃ p, ((start t s).compile env).1 = .ok p) ↔ Compilable s env t) ∧
    (∀ log p, (Build.taggedPlan (Job.of s env t) (Pass.start log)).1 = .ok p →
      (Build.taggedPlan (Job.of s env t) (Pass.start log)).2.memo =
        (Job.of s env t).lastPass.memo) ∧
    (∀ f, ((start t s).compile env).1 = .error f →
      CompileFault s env t f ∧ ((start t s).compile env).2.compiled = none) ∧
    ∀ c : TypeCatalog, env.types = c.lookup → ∀ name,
      (∃ p, env.types name t.dependencies = .ok p) ↔ ¬ c.Revisits t.dependencies name := by
  obtain ⟨hok, herror⟩ := compileFault_of_compileOnce s env hids
  rw [compile_of_not_compiled rfl]
  refine ⟨⟨?_, fun h => ?_⟩, fun log p hp => ?_, fun f hf => ⟨herror f hf, ?_⟩, fun c hc name => ?_⟩
  · rintro ⟨p, hp⟩
    exact compilable_iff.2 (hok p hp)
  · cases hone : (compileOnce s env t).1 with
    | ok p => exact ⟨p, hone⟩
    | error f => exact absurd (herror f hone) (compilable_iff.1 h f)
  · exact ((planFault_of_taggedPlan (Job.of s env t) hids log).1 p hp).1
  · exact congrArg Except.toOption hf
  · rw [hc]
    exact c.lookup_eq_ok_iff t.dependencies name

/-- A front that is started by a script of another machine, and writes the address of its store
under the name that the store asks for. -/
def wiredFront (name : String) : Topology where
  name := "shop"
  nodes := [
    ⟨"front", "Web", none, none, ∅, ["store"],
      [⟨"front_store", "store", "store", injectProperty,
        .ofEntries [("prop.name", .call ⟨"get_property", ["TARGET", "key"]⟩),
          ("prop.value", .scalar "10.0.0.5")], []⟩],
      [⟨"Standard", [⟨"start", some (.ofReference "https://shop.example/start.sh"), []⟩]⟩], []⟩,
    ⟨"store", "Store", none, none, .ofEntries [("key", .scalar name)], [], [], [], []⟩]
  groups := []
  dependencies := []
  archive := none

/-- Surroundings in which the other machine sends the script. -/
def shopSurroundings : Surroundings :=
  { bareSurroundings with
    files := {
      toFileTree := FileTree.emptyAt []
      fetch := fun url =>
        if url = "https://shop.example/start.sh" then .ok "serve"
        else .error (.unanswered s!"{url}: status code 404") } }

/-- The front compiles when the store asks for a name and the script is sent, so it is compilable.
When the name is blank it is not, and the relationship is reported; when nothing is sent it is not,
and the script is reported. -/
theorem compile_wiredFront : (wiredFront "STORE").ids.Nodup ∧ (wiredFront " ").ids.Nodup ∧
    Compilable (.initial ⟨none, none⟩) shopSurroundings (wiredFront "STORE") ∧
    ((start (wiredFront " ") (.initial ⟨none, none⟩)).compile shopSurroundings).1 =
      .error (.compile (.invalidRelationship "front" "front_store"
        "prop.name or prop.collection must be set")) ∧
    ¬ Compilable (.initial ⟨none, none⟩) shopSurroundings (wiredFront " ") ∧
    ((start (wiredFront "STORE") (.initial ⟨none, none⟩)).compile bareSurroundings).1 =
      .error (.compile (.artifactNotFound "front" "https://shop.example/start.sh"
        "unable to fetch https://shop.example/start.sh: no connection")) ∧
    ¬ Compilable (.initial ⟨none, none⟩) bareSurroundings (wiredFront "STORE") := by
  have hstore : (wiredFront "STORE").ids.Nodup := by decide
  have hblank : (wiredFront " ").ids.Nodup := by decide
  have hok : ((start (wiredFront "STORE") (.initial ⟨none, none⟩)).compile
      shopSurroundings).1.isOk = true := by
    decide +kernel
  have hname : ((start (wiredFront " ") (.initial ⟨none, none⟩)).compile shopSurroundings).1 =
      .error (.compile (.invalidRelationship "front" "front_store"
        "prop.name or prop.collection must be set")) :=
    eq_error_of_map (by decide +kernel)
  have hscript : ((start (wiredFront "STORE") (.initial ⟨none, none⟩)).compile
      bareSurroundings).1 = .error (.compile (.artifactNotFound "front"
        "https://shop.example/start.sh"
        "unable to fetch https://shop.example/start.sh: no connection")) :=
    eq_error_of_map (by decide +kernel)
  refine ⟨hstore, hblank, ?_, hname, fun h => ?_, hscript, fun h => ?_⟩
  · exact (compile_eq_ok_iff_compilable hstore _ _).1.1 (exists_ok_of_isOk hok)
  · obtain ⟨p, hp⟩ := (compile_eq_ok_iff_compilable hblank _ _).1.2 h
    rw [hname] at hp
    cases hp
  · obtain ⟨p, hp⟩ := (compile_eq_ok_iff_compilable hstore _ _).1.2 h
    rw [hscript] at hp
    cases hp

end Compiler

end DeployPlan
