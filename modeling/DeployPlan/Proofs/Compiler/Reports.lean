import DeployPlan.Proofs.Compiler.History
import DeployPlan.Proofs.Scene

/-!
# What a compiler reports

A compiler is called again and again while files, types and implementations change around it. As
long as it fails, each call is like the first call of a new compiler; once it has succeeded, it
reports the same plan and the same diagnostics ever after.
-/
namespace DeployPlan

/-- What a call of a compiler shows: its outcome, the diagnostics after it, and whether a plan is
kept then. -/
structure Report where
  outcome : Except Failure Plan
  diagnostics : List LogEntry
  isCompiled : Bool

/-- Reports up to the first one with a plan, which stands for all that come after it. -/
def Report.settle : List Report → List Report
  | [] => []
  | r :: rs => r :: if r.isCompiled then rs.map fun _ => r else settle rs

namespace Compiler

def report (c : Compiler) (env : Surroundings) : Report :=
  ⟨(c.compile env).1, (c.compile env).2.diagnostics, (c.compile env).2.isCompiled⟩

def reports (c : Compiler) : List Surroundings → List Report
  | [] => []
  | env :: envs => c.report env :: reports (c.compile env).2 envs

variable {t : Topology} {s : Settings} {c : Compiler} {p : Plan}

/-- A compiler without a plan answers like a new one, and leaves what a new one leaves. -/
theorem compile_eq_start (h : c.compiled = none) (env : Surroundings) :
    c.compile env = (start c.topology c.settings).compile env := by
  rw [compile_of_not_compiled h, compile_of_not_compiled rfl]
  rfl

theorem compile_keeps (c : Compiler) (env : Surroundings) :
    (c.compile env).2.topology = c.topology ∧ (c.compile env).2.settings = c.settings := by
  unfold compile
  split
  · exact ⟨rfl, rfl⟩
  · split <;> exact ⟨rfl, rfl⟩

/-- The plan that is kept after a call is the one that the call answers with. -/
theorem compiled_compile (c : Compiler) (env : Surroundings) :
    (c.compile env).2.compiled = (c.compile env).1.toOption := by
  cases h : c.compiled with
  | some p =>
    rw [compile_of_compiled h, h]
    rfl
  | none => rw [compile_of_not_compiled h]

theorem isCompiled_compile_iff (c : Compiler) (env : Surroundings) :
    (c.compile env).2.isCompiled = true ↔ ∃ p, (c.compile env).1 = .ok p := by
  rw [isCompiled, compiled_compile]
  cases (c.compile env).1 <;> simp [Except.toOption]

theorem reports_of_compiled (h : c.compiled = some p) (envs : List Surroundings) :
    c.reports envs = envs.map fun _ => ⟨.ok p, c.diagnostics, true⟩ := by
  induction envs with
  | nil => rfl
  | cons env envs ih =>
    have hcompile := compile_of_compiled h env
    have hreport : c.report env = ⟨.ok p, c.diagnostics, true⟩ := by
      rw [report, hcompile, isCompiled, h]
      rfl
    rw [reports, hreport, hcompile, ih, List.map_cons]

/-- After a call that succeeds, all reports are the report of that call. -/
theorem reports_of_isCompiled {env : Surroundings} (h : (c.report env).isCompiled = true)
    (envs : List Surroundings) :
    (c.compile env).2.reports envs = envs.map fun _ => c.report env := by
  obtain ⟨p, hp⟩ := (isCompiled_compile_iff c env).1 h
  have hkept : (c.compile env).2.compiled = some p := by
    rw [compiled_compile, hp]
    rfl
  have hreport : c.report env = ⟨.ok p, (c.compile env).2.diagnostics, true⟩ := by
    rw [← hp, ← h]
    rfl
  rw [reports_of_compiled hkept, hreport]

/-- The reports of a compiler without a plan are those of new ones up to the first plan. -/
theorem reports_of_not_compiled (h : c.compiled = none) (envs : List Surroundings) :
    c.reports envs = Report.settle (envs.map (start c.topology c.settings).report) := by
  induction envs generalizing c with
  | nil => rfl
  | cons env envs ih =>
    have hreport : c.report env = (start c.topology c.settings).report env := by
      rw [report, report, compile_eq_start h]
    rw [reports, List.map_cons, Report.settle, ← hreport]
    by_cases hdone : (c.report env).isCompiled = true
    · rw [if_pos hdone, reports_of_isCompiled hdone, List.map_map]
      rfl
    · have hnone : (c.compile env).2.compiled = none := by
        rwa [report, isCompiled, Bool.not_eq_true, Option.isSome_eq_false_iff,
          Option.isNone_iff_eq_none] at hdone
      obtain ⟨htopology, hsettings⟩ := compile_keeps c env
      rw [if_neg hdone, ih hnone, htopology, hsettings]

/-- A new compiler that cannot look up one of the types fails and has no diagnostics. -/
theorem report_of_refused {env : Surroundings}
    (h : ∃ name ∈ Scene.usedTypes t, ∃ f, env.types name t.dependencies = .error f) :
    (∃ f, ((start t s).report env).outcome = .error f) ∧
      ((start t s).report env).diagnostics = [] := by
  obtain ⟨name, hname, f, hf⟩ := h
  generalize hscene : Scene.build env.types t s.logging.start = out
  obtain ⟨g | scene, log⟩ := out
  · have hone := compileOnce_of_build_error hscene
    rw [report, compile_of_not_compiled rfl]
    exact ⟨⟨g, congrArg Prod.fst hone⟩, congrArg (fun out => out.2.captured) hone⟩
  · obtain ⟨profile, hprofile⟩ := (Scene.build_ok hscene).2 name hname
    rw [hf] at hprofile
    cases hprofile

/-- A compiler called in any surroundings in turn. Up to its first success each report is that of a
new compiler in the surroundings of the moment; from then on it is the report of that success. A new
compiler has a plan exactly when it succeeds, and no diagnostics when a type cannot be looked up. -/
theorem reports_settle (t : Topology) (s : Settings) (envs : List Surroundings) :
    (start t s).reports envs = Report.settle (envs.map (start t s).report) ∧
    ∀ env,
      (((start t s).report env).isCompiled = true ↔
        ∃ p, ((start t s).report env).outcome = .ok p) ∧
      ((∃ name ∈ Scene.usedTypes t, ∃ f, env.types name t.dependencies = .error f) →
        (∃ f, ((start t s).report env).outcome = .error f) ∧
          ((start t s).report env).diagnostics = []) :=
  ⟨reports_of_not_compiled rfl envs, fun env =>
    ⟨isCompiled_compile_iff (start t s) env, report_of_refused⟩⟩

/-- Surroundings in which the implementation of machines cannot be made. -/
def brokenSurroundings : Surroundings :=
  { bareSurroundings with
    registry := Registry.empty.register "Machine" fun _ => .error (.plain "no machine left") }

/-- A compilation that fails records why, one that cannot look up types leaves nothing of that, and
the first success is reported again when types cannot be looked up any more. -/
theorem reports_guestsAround :
    (∃ name ∈ Scene.usedTypes guestsAround, ∃ f,
      offlineSurroundings.types name guestsAround.dependencies = .error f) ∧
    ∃ failed refused done : Report,
      (start guestsAround (.initial ⟨none, none⟩)).reports
        [brokenSurroundings, offlineSurroundings, bareSurroundings, offlineSurroundings] =
          [failed, refused, done, done] ∧
      failed.isCompiled = false ∧
      Log.messagesAt .error failed.diagnostics = ["compilation failed"] ∧
      refused.isCompiled = false ∧ refused.diagnostics = [] ∧
      ∃ p, done.outcome = .ok p := by
  have hoffline : ∃ name ∈ Scene.usedTypes guestsAround, ∃ f,
      offlineSurroundings.types name guestsAround.dependencies = .error f :=
    ⟨"App", by decide, .plain "offline", rfl⟩
  obtain ⟨hreports, hnew⟩ := reports_settle guestsAround (.initial ⟨none, none⟩)
    [brokenSurroundings, offlineSurroundings, bareSurroundings, offlineSurroundings]
  have hfailed : ((start guestsAround (.initial ⟨none, none⟩)).report
      brokenSurroundings).isCompiled = false := by
    decide +kernel
  have hrefused : ((start guestsAround (.initial ⟨none, none⟩)).report
      offlineSurroundings).isCompiled = false := by
    decide +kernel
  have hdone : ((start guestsAround (.initial ⟨none, none⟩)).report
      bareSurroundings).isCompiled = true := by
    decide +kernel
  refine ⟨hoffline, _, _, _, ?_, hfailed, ?_, hrefused, ((hnew _).2 hoffline).2,
    (hnew _).1.1 hdone⟩
  · rw [hreports]
    simp only [List.map_cons, List.map_nil, Report.settle, hfailed, hrefused, hdone]
    rfl
  · decide +kernel

end Compiler

end DeployPlan
