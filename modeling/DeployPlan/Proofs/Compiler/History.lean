import DeployPlan.Proofs.Plan.Forest

/-!
# Compilations in sequence

Whatever was compiled before, a plan that a compiler answers with was built by one compilation of
its topology; so it is the containment forest of the topology.
-/
namespace DeployPlan

/-- What a compilation makes of the outcome of its build. -/
def reported (outcome : Except Failure Plan) (pass : Pass) : Except Failure Plan × Log :=
  match outcome with
  | .ok p => (.ok p, pass.log)
  | .error f => (.error f, pass.log.recordFailure f)

theorem reported_fst (outcome : Except Failure Plan) (pass : Pass) :
    (reported outcome pass).1 = outcome := by
  cases outcome <;> rfl

section

variable {s : Settings} {env : Surroundings} {t : Topology} {log : Log}

theorem compileOnce_of_build_ok {scene : Scene}
    (h : Scene.build env.types t s.logging.start = (.ok scene, log)) :
    compileOnce s env t =
      reported (Build.taggedPlan ⟨scene, env.registry, env.files, s⟩ (Pass.start log)).1
        (Build.taggedPlan ⟨scene, env.registry, env.files, s⟩ (Pass.start log)).2 := by
  rw [compileOnce, h]
  generalize hx : Build.taggedPlan ⟨scene, env.registry, env.files, s⟩ (Pass.start log) = x
  obtain ⟨_ | _, _⟩ := x <;> simp only [hx, reported]

theorem compileOnce_of_build_error {f : Failure}
    (h : Scene.build env.types t s.logging.start = (.error f, log)) :
    compileOnce s env t = (.error f, log.take.2) := by
  rw [compileOnce, h]

end

/-- A compilation that succeeds built the plan of its topology. -/
theorem plan_of_compileOnce {s : Settings} {env : Surroundings} {t : Topology} {p : Plan}
    {log : Log} (h : compileOnce s env t = (.ok p, log)) :
    ∃ (job : Job) (q q' : Pass), job.scene.topology = t ∧ Build.plan job q = (.ok p, q') := by
  unfold compileOnce at h
  split at h
  · cases h
  · next scene log₁ hscene =>
    split at h
    · next p₁ pass hplan =>
      cases h
      obtain ⟨q, q', hq⟩ := Build.tagged_eq_ok hplan
      refine ⟨_, q, q', ?_, hq⟩
      unfold Scene.build at hscene
      split at hscene
      · cases hscene
      · cases hscene
        rfl
    · cases h

namespace Compiler

/-- A compiler without a plan answers with one compilation, and keeps its plan. -/
theorem compile_of_not_compiled {c : Compiler} (h : c.compiled = none) (env : Surroundings) :
    c.compile env = ((compileOnce c.settings env c.topology).1,
      { c with
        compiled := (compileOnce c.settings env c.topology).1.toOption
        diagnostics := (compileOnce c.settings env c.topology).2.captured }) := by
  obtain ⟨t, s, compiled, diagnostics⟩ := c
  cases h
  simp only [compile]
  generalize compileOnce s env t = out
  obtain ⟨_ | _, log⟩ := out <;> rfl

/-- A compiler after compilations in some surroundings in turn. -/
def after (c : Compiler) (envs : List Surroundings) : Compiler :=
  envs.foldl (fun c env => (c.compile env).2) c

variable {t : Topology} {s : Settings} {c : Compiler} {env : Surroundings} {p : Plan}

/-- A compiler of a topology under settings, whose plan, if it has one, comes from a compilation of
that topology under those settings. -/
structure Reached (t : Topology) (s : Settings) (c : Compiler) : Prop where
  topology : c.topology = t
  settings : c.settings = s
  compiled : ∀ p, c.compiled = some p → ∃ env log, compileOnce s env t = (.ok p, log)

theorem reached_start (t : Topology) (s : Settings) : Reached t s (start t s) :=
  ⟨rfl, rfl, by simp [start]⟩

/-- A plan that is answered comes from a compilation, and the compiler is still a reached one. -/
theorem Reached.compile (h : Reached t s c) (env : Surroundings) :
    Reached t s (c.compile env).2 ∧
      ∀ p, (c.compile env).1 = .ok p → ∃ env' log, compileOnce s env' t = (.ok p, log) := by
  obtain ⟨rfl, rfl, hc⟩ := h
  unfold Compiler.compile
  split
  · next p hp =>
    refine ⟨⟨rfl, rfl, hc⟩, fun p' hp' => ?_⟩
    cases hp'
    exact hc p hp
  · next hnone =>
    split
    · next p log hp =>
      refine ⟨⟨rfl, rfl, fun p' hp' => ?_⟩, fun p' hp' => ?_⟩
      · cases hp'
        exact ⟨env, log, hp⟩
      · cases hp'
        exact ⟨env, log, hp⟩
    · next f log hp => exact ⟨⟨rfl, rfl, hc⟩, by simp⟩

theorem Reached.after (h : Reached t s c) (envs : List Surroundings) :
    Reached t s (c.after envs) := by
  induction envs generalizing c with
  | nil => exact h
  | cons env envs ih => exact ih (h.compile env).1

/-- A plan of a topology of distinct ids that is answered after any compilations before is the
containment forest of the topology: it has as many nodes, a node is below another exactly when it
declares that one as its parent, and on top exactly when it declares none. -/
theorem compile_containment_forest (hids : t.ids.Nodup) {envs : List Surroundings}
    (h : (((start t s).after envs).compile env).1 = .ok p) :
    p.IsContainmentForest t ∧ p.nodeCount = t.nodes.length ∧
      (∀ n ∈ t.nodes, ∀ id, (∃ q ∈ Tree.subtreesOf p.roots, q.label.id = id ∧
        n.id ∈ PlanTree.childIds q) ↔ n.hostParent? = some id) ∧
      ∀ n ∈ t.nodes, (∃ q ∈ p.roots, q.label.id = n.id) ↔ n.hostParent? = none := by
  obtain ⟨env', log, hone⟩ := (((reached_start t s).after envs).compile env).2 p h
  obtain ⟨job, q, q', rfl, hplan⟩ := plan_of_compileOnce hone
  have hforest := Build.isContainmentForest_of_plan hplan hids
  refine ⟨hforest, hforest.nodeCount_eq, fun n hn id => ?_, fun n hn => ?_⟩
  · constructor
    · rintro ⟨q, hq, rfl, hmem⟩
      exact hforest.hostParent?_of_mem_childIds hids hn hq hmem
    · intro hid
      obtain ⟨q, hq, hqid⟩ := hforest.exists_subtree (Build.hostParent?_mem_ids hplan hn hid)
      refine ⟨q, hq, hqid, ?_⟩
      rw [hforest.childIds_eq q hq, hqid]
      exact List.mem_map_of_mem (List.mem_filter.2 ⟨hn, by simpa using hid⟩)
  · exact hforest.mem_roots_iff hids hn

/-- A topology that declares two nodes around the one they are placed on. -/
def guestsAround : Topology where
  name := "site"
  nodes := [
    ⟨"app", "App", none, none, ∅, ["host"], [⟨"app_host", "host", "vm", hostedOn, ∅, []⟩], [], []⟩,
    ⟨"vm", "Machine", none, none, ∅, [], [], [], []⟩,
    ⟨"log", "App", none, none, ∅, ["host"], [⟨"log_host", "host", "vm", hostedOn, ∅, []⟩], [], []⟩]
  groups := []
  dependencies := []
  archive := none

/-- Surroundings in which no type is defined and nothing is registered. -/
def bareSurroundings : Surroundings := ⟨fun name _ => .ok (.bare name), .empty, FileTree.emptyAt []⟩

/-- Surroundings in which no type can be looked up. -/
def offlineSurroundings : Surroundings :=
  { bareSurroundings with types := fun _ _ => .error (.plain "offline") }

/-- Two nodes around their host compile to one tree, also after a compilation that failed. -/
theorem compile_guestsAround : guestsAround.ids.Nodup ∧
    ∃ p, (((start guestsAround (.initial ⟨none, none⟩)).after [offlineSurroundings]).compile
        bareSurroundings).1 = .ok p ∧
      p.IsContainmentForest guestsAround ∧ p.nodeCount = 3 := by
  have hids : guestsAround.ids.Nodup := by decide
  refine ⟨hids, ?_⟩
  have hok : (((start guestsAround (.initial ⟨none, none⟩)).after [offlineSurroundings]).compile
      bareSurroundings).1.isOk = true := by decide +kernel
  obtain ⟨p, hp⟩ := exists_ok_of_isOk hok
  obtain ⟨hforest, hcount, -, -⟩ := compile_containment_forest hids hp
  exact ⟨p, hp, hforest, hcount⟩

end Compiler

end DeployPlan
