import DeployPlan.Proofs.Build.Parts
import DeployPlan.Proofs.Compiler.Failure
import DeployPlan.Proofs.Compiler.Reports

/-!
# What diagnostics tell of a failure

A failure is the last thing that a compilation records. So the diagnostics tell of it as long as the
build has left room for one more entry; after a build that filled them they end with the notice that
entries are missing, and no entry reports a failure.
-/
namespace DeployPlan

/-- An entry reports a failure: at the gravest level, with the text of the failure. -/
def LogEntry.Reports (e : LogEntry) (f : Failure) : Prop :=
  e.level = .error ∧ e.message = "compilation failed" ∧ e.data = some [("error", .str f.text)]

/-- What is captured when the build of a compilation ends, before a failure is recorded. -/
def capturedByBuild (s : Settings) (env : Surroundings) (t : Topology) : List LogEntry :=
  (Build.taggedPlan (Job.of s env t)
    (Pass.start (Scene.build env.types t s.logging.start).2)).2.log.captured

section

variable {s : Settings} {env : Surroundings} {t : Topology} {f : Failure}

/-- What the build leaves in the log is bounded and reports no failure. -/
theorem bounded_capturedByBuild (job : Job) (lookup : TypeLookup) (t : Topology) :
    (Build.taggedPlan job (Pass.start (Scene.build lookup t
      job.settings.logging.start).2)).2.log.Bounded ∧
    (Build.taggedPlan job (Pass.start (Scene.build lookup t
      job.settings.logging.start).2)).2.log.Mild := by
  have hrun := (Scene.notes_build lookup t job.settings.logging.start).goesOn.trans
    (Build.goesOn_taggedPlan job (Pass.start (Scene.build lookup t
      job.settings.logging.start).2))
  exact ⟨(Log.bounded_start _ _).goesOn hrun, (Log.mild_start _ _).goesOn hrun⟩

/-- A compilation that fails although all types can be looked up has captured what its build has,
and the failure after it while there is room, else the notice. -/
theorem captured_of_compileOnce_error
    (htypes : ∀ name ∈ Scene.usedTypes t, ∃ p, env.types name t.dependencies = .ok p)
    (h : (compileOnce s env t).1 = .error f) :
    ∃ e : LogEntry, e.Reports f ∧ (compileOnce s env t).2.captured =
      if (capturedByBuild s env t).length < Log.captureLimit then capturedByBuild s env t ++ [e]
      else (capturedByBuild s env t).take Log.captureLimit ++ [Log.truncationNotice] := by
  generalize hscene : Scene.build env.types t s.logging.start = out
  obtain ⟨g | scene, log⟩ := out
  · obtain ⟨name, hname, hrefused⟩ := Scene.build_error hscene
    obtain ⟨profile, hprofile⟩ := htypes name hname
    rw [hprofile] at hrefused
    cases hrefused
  · obtain ⟨rfl, -⟩ := Scene.build_ok hscene
    obtain ⟨hbounded, -⟩ := bounded_capturedByBuild (Job.of s env t) env.types t
    rw [compileOnce_of_build_ok hscene] at h ⊢
    rw [reported_fst] at h
    rw [capturedByBuild]
    simp only [Job.of, hscene] at hbounded ⊢
    rw [h, reported, Log.recordFailure, hbounded.captured_record_error]
    exact ⟨_, ⟨rfl, rfl, rfl⟩, rfl⟩

end

namespace Compiler

variable {c : Compiler} {env : Surroundings} {f : Failure}

/-- The diagnostics after a failure are those of one compilation. -/
theorem diagnostics_of_error
    (htypes : ∀ name ∈ Scene.usedTypes c.topology,
      ∃ p, env.types name c.topology.dependencies = .ok p)
    (h : (c.compile env).1 = .error f) :
    ∃ e : LogEntry, e.Reports f ∧ (c.compile env).2.diagnostics =
      if (capturedByBuild c.settings env c.topology).length < Log.captureLimit then
        capturedByBuild c.settings env c.topology ++ [e]
      else (capturedByBuild c.settings env c.topology).take Log.captureLimit ++
        [Log.truncationNotice] := by
  have hnone : c.compiled = none := by
    cases hc : c.compiled with
    | none => rfl
    | some p =>
      rw [compile_of_compiled hc] at h
      cases h
  rw [compile_of_not_compiled hnone] at h ⊢
  exact captured_of_compileOnce_error htypes h

/-- A build that fills the log leaves no room for the failure. -/
theorem diagnostics_of_full
    (htypes : ∀ name ∈ Scene.usedTypes c.topology,
      ∃ p, env.types name c.topology.dependencies = .ok p)
    (h : (c.compile env).1 = .error f)
    (hfull : Log.captureLimit ≤ (capturedByBuild c.settings env c.topology).length) :
    (c.compile env).2.diagnostics =
      (capturedByBuild c.settings env c.topology).take Log.captureLimit ++
        [Log.truncationNotice] ∧
    ∀ e ∈ (c.compile env).2.diagnostics, e.level ≠ .error := by
  obtain ⟨-, hmild⟩ :=
    bounded_capturedByBuild (Job.of c.settings env c.topology) env.types c.topology
  obtain ⟨e, -, hdiagnostics⟩ := diagnostics_of_error htypes h
  rw [if_neg (Nat.not_lt.2 hfull)] at hdiagnostics
  refine ⟨hdiagnostics, ?_⟩
  rw [hdiagnostics, List.forall_mem_append, List.forall_mem_singleton]
  exact ⟨fun e he => hmild e (List.mem_of_mem_take he), by decide⟩

/-- A compiler that fails although all types can be looked up reports the failure exactly when its
build has captured less than the log can hold, and then last. Otherwise the diagnostics are the
first entries of the build and the notice that others are missing, and none is at the gravest
level. -/
theorem failure_reported_iff
    (htypes : ∀ name ∈ Scene.usedTypes c.topology,
      ∃ p, env.types name c.topology.dependencies = .ok p)
    (h : (c.compile env).1 = .error f) :
    ((∃ e ∈ (c.compile env).2.diagnostics, e.Reports f) ↔
      (capturedByBuild c.settings env c.topology).length < Log.captureLimit) ∧
    ((capturedByBuild c.settings env c.topology).length < Log.captureLimit →
      ∃ e : LogEntry, e.Reports f ∧ (c.compile env).2.diagnostics =
        capturedByBuild c.settings env c.topology ++ [e]) ∧
    (Log.captureLimit ≤ (capturedByBuild c.settings env c.topology).length →
      (c.compile env).2.diagnostics =
        (capturedByBuild c.settings env c.topology).take Log.captureLimit ++
          [Log.truncationNotice] ∧
      ∀ e ∈ (c.compile env).2.diagnostics, e.level ≠ .error) := by
  obtain ⟨e, he, hdiagnostics⟩ := diagnostics_of_error htypes h
  have hroomy (hroom : (capturedByBuild c.settings env c.topology).length < Log.captureLimit) :
      (c.compile env).2.diagnostics = capturedByBuild c.settings env c.topology ++ [e] := by
    rw [hdiagnostics, if_pos hroom]
  refine ⟨⟨?_, fun hroom => ⟨e, ?_, he⟩⟩, fun hroom => ⟨e, he, hroomy hroom⟩,
    diagnostics_of_full htypes h⟩
  · rintro ⟨e', hmem, he'⟩
    by_contra hfull
    exact (diagnostics_of_full htypes h (Nat.not_lt.1 hfull)).2 e' hmem he'.1
  · rw [hroomy hroom]
    exact List.mem_concat_self

/-- A compilation that is stopped by an implementation that cannot be made reports that. -/
theorem failure_reported_brokenSurroundings :
    (∀ name ∈ Scene.usedTypes guestsAround,
      ∃ p, brokenSurroundings.types name guestsAround.dependencies = .ok p) ∧
    ∃ f, ((start guestsAround (.initial ⟨none, none⟩)).compile brokenSurroundings).1 = .error f ∧
      ∃ e ∈ ((start guestsAround (.initial ⟨none, none⟩)).compile
        brokenSurroundings).2.diagnostics, e.Reports f := by
  have htypes : ∀ name ∈ Scene.usedTypes guestsAround,
      ∃ p, brokenSurroundings.types name guestsAround.dependencies = .ok p :=
    fun name _ => ⟨.bare name, rfl⟩
  have hfailed : ((start guestsAround (.initial ⟨none, none⟩)).compile
      brokenSurroundings).1.isOk = false := by
    decide +kernel
  refine ⟨htypes, ?_⟩
  generalize hx : ((start guestsAround (.initial ⟨none, none⟩)).compile
    brokenSurroundings).1 = x at hfailed
  cases x with
  | ok p => cases hfailed
  | error f => exact ⟨f, rfl, (failure_reported_iff htypes hx).1.2 (by decide +kernel)⟩

end Compiler

/-- Behaviours of a type that is not registered are noted one by one. -/
theorem Group.applyPolicies_replicate {g : Group} {r : Registry} {policy : Policy} {name : String}
    (hkind : policy.kind = .behavior) (hname : g.behaviorType policy = .ok name) (k : Nat)
    (rest : List Policy) (p : Plan) (log : Log) :
    ∃ p', g.applyPolicies r (List.replicate k policy ++ rest) p log =
      g.applyPolicies r rest p' ((fun log => (g.categoryOf r name log).2)^[k] log) := by
  induction k generalizing p log with
  | zero => exact ⟨p, rfl⟩
  | succ k ih =>
    obtain ⟨p₁, hone⟩ : ∃ p₁,
        g.applyPolicy r policy p log = (.ok p₁, (g.categoryOf r name log).2) := by
      simp only [applyPolicy, hkind, hname]
      exact ⟨_, rfl⟩
    obtain ⟨p₂, hrest⟩ := ih p₁ (g.categoryOf r name log).2
    refine ⟨p₂, ?_⟩
    rw [List.replicate_succ, List.cons_append, applyPolicies, hone]
    exact hrest

namespace Compiler

/-- A group of behaviours of one type, and a last one without a type. -/
def watchers (k : Nat) : Group where
  name := "all"
  members := []
  policies := List.replicate k ⟨"watch", .behavior, some "Watch", []⟩ ++
    [⟨"last", .behavior, none, []⟩]

/-- A topology that declares nothing but such a group. -/
def watched (k : Nat) : Topology := ⟨"site", [], [watchers k], [], none⟩

/-- A log with the note on a behaviour whose type is not registered. -/
def noteWatch (log : Log) : Log := ((watchers 0).categoryOf .empty "Watch" log).2

/-- What stops the build of such a topology. -/
def untyped : Failure := .compile (.missingBehaviorType "all" "last")

theorem decorate_watchers (k : Nat) (p : Plan) (log : Log) :
    Plan.decorate .empty [watchers k] p log = (.error untyped, noteWatch^[k] log) := by
  obtain ⟨p', hp'⟩ : ∃ p', (watchers k).decorate .empty p log =
      (watchers k).applyPolicies .empty [⟨"last", .behavior, none, []⟩] p' (noteWatch^[k] log) :=
    Group.applyPolicies_replicate rfl (by rfl) k _ p log
  rw [Plan.decorate, hp']
  rfl

/-- The build of such a topology notes its behaviours one by one and fails at the last one. -/
theorem plan_watched (k : Nat) (s : Settings) (p : Pass) :
    Build.plan (Job.of s bareSurroundings (watched k)) p =
      (.error untyped, { p with log := noteWatch^[k] p.log }) := by
  have hfinish : Build.plan (Job.of s bareSurroundings (watched k)) p =
      Build.finish (Job.of s bareSurroundings (watched k)) [] p := rfl
  have hdecorate : Build.onLog (Plan.decorate .empty [watchers k] ⟨"site", [], []⟩) p =
      (.error untyped, { p with log := noteWatch^[k] p.log }) := by
    rw [Build.onLog, decorate_watchers]
  rw [hfinish]
  exact Build.bind_of_error hdecorate

def taggedLog (s : Settings) : Log := (s.logging.start.pushTags Build.passTags).2

theorem taggedPlan_watched (k : Nat) (s : Settings) :
    Build.taggedPlan (Job.of s bareSurroundings (watched k)) (Pass.start s.logging.start) =
      (.error untyped, Pass.start (noteWatch^[k] (taggedLog s)).popTags) := by
  have hrun : Build.taggedPlan (Job.of s bareSurroundings (watched k))
      (Pass.start s.logging.start) =
        ((Build.plan (Job.of s bareSurroundings (watched k)) (Pass.start (taggedLog s))).1,
          { (Build.plan (Job.of s bareSurroundings (watched k)) (Pass.start (taggedLog s))).2 with
            log := (Build.plan (Job.of s bareSurroundings (watched k))
              (Pass.start (taggedLog s))).2.log.popTags }) := rfl
  rw [hrun, plan_watched]
  rfl

theorem compile_watched (k : Nat) (s : Settings) :
    ((start (watched k) s).compile bareSurroundings).1 = .error untyped := by
  have hscene : Scene.build bareSurroundings.types (watched k) s.logging.start =
      (.ok (Scene.ofTypes bareSurroundings.types (watched k)), s.logging.start) := rfl
  rw [compile_of_not_compiled rfl]
  refine (congrArg Prod.fst (compileOnce_of_build_ok hscene)).trans ?_
  rw [reported_fst]
  exact congrArg Prod.fst (taggedPlan_watched k s)

theorem length_capturedByBuild_watched {k : Nat} (hk : k ≤ Log.captureLimit) :
    (capturedByBuild (.initial ⟨none, none⟩) bareSurroundings (watched k)).length = k := by
  have hnote : noteWatch = fun log => log.record .warn
      "behavior type Watch is not registered; attaching as policy"
      (some (.obj [("group", .str "all"), ("type", .str "Watch")])) := by
    rfl
  have hcaptured : capturedByBuild (.initial ⟨none, none⟩) bareSurroundings (watched k) =
      (noteWatch^[k] (taggedLog (.initial ⟨none, none⟩))).captured :=
    congrArg (fun out => out.2.log.captured) (taggedPlan_watched k (.initial ⟨none, none⟩))
  have hempty : (taggedLog (.initial ⟨none, none⟩)).captured.length = 0 := rfl
  rw [hcaptured, hnote, Log.length_iterate_record (by decide) (by omega), hempty, Nat.zero_add]

/-- A build that notes as much as the log can hold before it fails does not report the failure. -/
theorem not_reported_watched :
    (∀ name ∈ Scene.usedTypes (watched Log.captureLimit),
      ∃ p, bareSurroundings.types name (watched Log.captureLimit).dependencies = .ok p) ∧
    ((start (watched Log.captureLimit) (.initial ⟨none, none⟩)).compile bareSurroundings).1 =
      .error untyped ∧
    ¬ ∃ e ∈ ((start (watched Log.captureLimit) (.initial ⟨none, none⟩)).compile
      bareSurroundings).2.diagnostics, e.Reports untyped := by
  have htypes : ∀ name ∈ Scene.usedTypes (watched Log.captureLimit),
      ∃ p, bareSurroundings.types name (watched Log.captureLimit).dependencies = .ok p :=
    fun name _ => ⟨.bare name, rfl⟩
  have herror := compile_watched Log.captureLimit (.initial ⟨none, none⟩)
  refine ⟨htypes, herror, ?_⟩
  rintro ⟨e, he, hreports⟩
  have hlength := length_capturedByBuild_watched (Nat.le_refl Log.captureLimit)
  exact (diagnostics_of_full htypes herror (Nat.le_of_eq hlength.symm)).2 e he hreports.1

end Compiler

end DeployPlan
