import DeployPlan.Proofs.Compiler.Diagnostics

/-!
# Tags of diagnostics

The diagnostics of a compilation are what its parts have captured, one after the other. What the
build of a node records is tagged with that node, however deep it is nested and whatever was built
before it; the build as a whole is tagged as such, and the report of a failure is not tagged at all.
-/
namespace DeployPlan

/-- The report of a failure is the last stretch of a log. -/
def Stretch.ofOutcome (outcome : Except Failure Plan) (log : Log) : List Stretch :=
  match outcome with
  | .ok _ => []
  | .error f => [⟨.failure, log, log.recordFailure f⟩]

namespace Compiler

/-- The stretches of the log of a compilation. When a type cannot be looked up, nothing that was
captured is left. -/
def stretches (c : Compiler) (env : Surroundings) : List Stretch :=
  match Scene.build env.types c.topology c.settings.logging.start with
  | (.error _, _) => []
  | (.ok scene, log) =>
    match Chronicled.taggedPlan ⟨scene, env.registry, env.files, c.settings⟩
      ⟨Pass.start log, []⟩ with
    | (outcome, chronicle) =>
      ⟨.types, c.settings.logging.start, log⟩ :: chronicle.stretches ++
        Stretch.ofOutcome outcome chronicle.pass.log

end Compiler

section

variable {outer : Fields} {outcome : Except Failure Plan} {pass : Pass}

/-- The report of a failure is attributed to the failure. -/
theorem captured_reported (outcome : Except Failure Plan) (pass : Pass) :
    (reported outcome pass).2.captured =
      pass.log.captured ++ (Stretch.ofOutcome outcome pass.log).flatMap Stretch.captured ∧
    (pass.log.tagStack = [] → ∀ st ∈ Stretch.ofOutcome outcome pass.log, st.IsTagged []) := by
  cases outcome with
  | ok p => exact ⟨(List.append_nil _).symm, fun _ => List.forall_mem_nil _⟩
  | error f =>
    obtain ⟨es, hcaptured, hes⟩ := Log.captured_record pass.log .error "compilation failed"
      (some (.obj [("error", .str f.text)]))
    have hstretch : Stretch.captured ⟨.failure, pass.log, pass.log.recordFailure f⟩ = es :=
      Stretch.captured_eq hcaptured
    constructor
    · rw [reported, Stretch.ofOutcome, List.flatMap_singleton, hstretch]
      exact hcaptured
    · intro hstack
      rw [Stretch.ofOutcome, List.forall_mem_singleton, Stretch.IsTagged, hstretch]
      intro e he
      refine (hes e he).imp_right ?_
      rintro rfl
      refine ⟨?_, fun _ => rfl⟩
      show pass.log.scopeTags = []
      rw [Log.scopeTags_eq, hstack]
      rfl

end

namespace Compiler

variable {c : Compiler} {env : Surroundings}

/-- What is captured in the end is captured during the stretches, which are tagged. -/
theorem captured_eq_stretches (c : Compiler) (env : Surroundings) :
    (compileOnce c.settings env c.topology).2.captured =
      (c.stretches env).flatMap Stretch.captured ∧
    ∀ st ∈ c.stretches env, st.IsTagged [] := by
  unfold stretches
  generalize hscene : Scene.build env.types c.topology c.settings.logging.start = out
  obtain ⟨f | scene, log⟩ := out
  · rw [compileOnce_of_build_error hscene]
    exact ⟨rfl, List.forall_mem_nil _⟩
  · have hnotes : Log.Notes c.settings.logging.start log := by
      have hnotes := Scene.notes_build env.types c.topology c.settings.logging.start
      rwa [hscene] at hnotes
    have htypes : Attributed [] c.settings.logging.start log
        [⟨.types, c.settings.logging.start, log⟩] :=
      .of_notes hnotes rfl
    have hstack : log.tagStack = [] := hnotes.tagStack
    obtain ⟨houtcome, hpass, ss, hss, hbuild⟩ := (chronicles_taggedPlan
      ⟨scene, env.registry, env.files, c.settings⟩ []).run ⟨Pass.start log, []⟩ hstack
    rw [compileOnce_of_build_ok hscene, ← houtcome, ← hpass]
    rw [← hpass] at hbuild
    dsimp only
    generalize Chronicled.taggedPlan ⟨scene, env.registry, env.files, c.settings⟩
      ⟨Pass.start log, []⟩ = run at hss hbuild ⊢
    obtain ⟨outcome, chronicle⟩ := run
    obtain rfl : chronicle.stretches = ss := hss
    have hall : Attributed [] c.settings.logging.start chronicle.pass.log
        (⟨.types, c.settings.logging.start, log⟩ :: chronicle.stretches) :=
      htypes.trans hbuild
    have hnone : chronicle.pass.log.tagStack = [] := hall.restored
    obtain ⟨hreported, htagged⟩ := captured_reported outcome chronicle.pass
    constructor
    · rw [hreported, hall.captured, List.flatMap_append]
      exact List.append_assoc [] _ _
    · exact List.forall_mem_append.2 ⟨hall.isTagged, htagged hnone⟩

/-- The diagnostics of a compilation are what its parts have captured in turn, whether it succeeds
or fails. Telling the parts apart changes nothing about the build, which leaves the tags in force as
it finds them. Each entry but the notice that entries are missing has just the tags of its part,
and one that reports a failure has none. -/
theorem diagnostics_by_parts (h : c.compiled = none) (env : Surroundings) :
    (∀ (job : Job) (p : Pass),
      (Chronicled.taggedPlan job ⟨p, []⟩).1 = (Build.taggedPlan job p).1 ∧
      (Chronicled.taggedPlan job ⟨p, []⟩).2.pass = (Build.taggedPlan job p).2 ∧
      (Build.taggedPlan job p).2.log.tagStack = p.log.tagStack) ∧
    (c.compile env).2.diagnostics = (c.stretches env).flatMap Stretch.captured ∧
    (∀ st ∈ c.stretches env, ∀ e ∈ st.captured,
      e = Log.truncationNotice ∨ e.tags = st.part.tags) ∧
    ∀ e ∈ (c.compile env).2.diagnostics, ∀ f, e.Reports f → e.tags = [] := by
  obtain ⟨hcaptured, htagged⟩ := captured_eq_stretches c env
  have hdiagnostics : (c.compile env).2.diagnostics =
      (c.stretches env).flatMap Stretch.captured := by
    rw [compile_of_not_compiled h]
    exact hcaptured
  refine ⟨fun job p => ?_, hdiagnostics, fun st hst e he => ?_, fun e he f hreports => ?_⟩
  · obtain ⟨houtcome, hpass, ss, -, hattributed⟩ :=
      (chronicles_taggedPlan job p.log.tagStack).run ⟨p, []⟩ rfl
    exact ⟨houtcome, hpass, hattributed.restored⟩
  · refine (htagged st hst e he).imp_right fun htags => ?_
    rw [htags.1, Part.putAll_tags]
  · rw [hdiagnostics] at he
    obtain ⟨st, hst, hmem⟩ := List.mem_flatMap.1 he
    rcases htagged st hst e hmem with rfl | ⟨htags, hgrave⟩
    · exact absurd hreports.1 (by decide)
    · rw [htags, hgrave hreports.1]
      rfl

/-- Surroundings in which one of the guests cannot be made. -/
def pickySurroundings : Surroundings :=
  { bareSurroundings with
    registry := Registry.empty.register "App" fun n =>
      if n.id = "log" then .error (.plain "no room for logs") else .ok .empty }

/-- The host and the first guest on it are selected, each under its own tags; what the second guest
fails with is reported without any. -/
theorem diagnostics_pickySurroundings :
    (start guestsAround (.initial ⟨none, none⟩)).compiled = none ∧
    ((start guestsAround (.initial ⟨none, none⟩)).stretches pickySurroundings).map
      Stretch.part = [.types, .graph, .node "vm", .node "app", .node "log", .failure] ∧
    (∀ st ∈ (start guestsAround (.initial ⟨none, none⟩)).stretches pickySurroundings,
      st.part = .node "app" → ∀ e ∈ st.captured, e = Log.truncationNotice ∨
        e.tags = [("component", .str "assembler"), ("node", .str "app")]) ∧
    ((start guestsAround (.initial ⟨none, none⟩)).compile
      pickySurroundings).2.diagnostics.map LogEntry.tags =
        [[("component", .str "assembler"), ("node", .str "vm")],
          [("component", .str "assembler"), ("node", .str "app")], []] := by
  have hnone : (start guestsAround (.initial ⟨none, none⟩)).compiled = none := rfl
  obtain ⟨-, -, htags, -⟩ := diagnostics_by_parts hnone pickySurroundings
  refine ⟨hnone, by decide +kernel, fun st hst hpart e he => ?_, by decide +kernel⟩
  have hentry := htags st hst e he
  rwa [hpart] at hentry

end Compiler

end DeployPlan
