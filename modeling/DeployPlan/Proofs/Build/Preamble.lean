import DeployPlan.Proofs.Build.Commands
import Mathlib.Algebra.GroupWithZero.Nat

/-!
# The lines of a script

The script of an operation is one export line for each input and then its body. What an input stands
for is put into its line as it is, so a value of several lines makes several lines of its export. In
all other cases the lines before the body are as many as there are inputs.
-/
namespace DeployPlan

/-- The texts between line breaks. -/
def linesOf (t : String) : List String := (t.toList.splitOn '\n').map String.ofList

/-- How many line breaks a text has. -/
def lineBreaks (t : String) : Nat := t.toList.count '\n'

/-- An export line without the break at its end, `value` giving what inputs stand for. -/
def exportLine (value : PropertyValue → Resolution) (fill : AttributeRef → String)
    (input : String × PropertyValue) : String :=
  s!"export {input.1}=" ++ (value input.2).render fill

section

variable {s t : String} {ls : List String}

theorem linesOf_append_break (s t : String) :
    linesOf (s ++ "\n" ++ t) = linesOf s ++ linesOf t := by
  have hchars : (s ++ "\n" ++ t).toList = s.toList ++ '\n' :: t.toList := by simp
  rw [linesOf, hchars, List.splitOn_append_cons_self, List.map_append, linesOf, linesOf]

theorem linesOf_eq_singleton (h : lineBreaks t = 0) : linesOf t = [t] := by
  have hno : ∀ c ∈ t.toList, (c == '\n') = false := by
    intro c hc
    rw [beq_eq_false_iff_ne]
    rintro rfl
    exact List.count_eq_zero.1 h hc
  rw [linesOf, List.splitOn_eq_splitOnP, List.splitOnP_eq_singleton hno, List.map_singleton,
    String.ofList_toList]

/-- There is one line more than there are line breaks. -/
theorem length_linesOf (t : String) : (linesOf t).length = lineBreaks t + 1 := by
  rw [linesOf, List.length_map, lineBreaks]
  induction t.toList with
  | nil => rfl
  | cons c cs ih =>
    rw [List.splitOn_cons_eq_if_modifyHead, List.count_cons]
    split
    · rw [List.length_cons, ih]
    · rw [List.length_modifyHead, ih, Nat.add_zero]

theorem lineBreaks_append (s t : String) : lineBreaks (s ++ t) = lineBreaks s + lineBreaks t := by
  rw [lineBreaks, String.toList_append, List.count_append, lineBreaks, lineBreaks]

/-- Texts that are each ended by a line break have their lines in turn. -/
theorem linesOf_join (ls : List String) (t : String) :
    linesOf (String.join (ls.map (· ++ "\n")) ++ t) = ls.flatMap linesOf ++ linesOf t := by
  induction ls with
  | nil => simp
  | cons l ls ih =>
    rw [List.map_cons, String.join_cons, List.flatMap_cons, List.append_assoc, ← ih,
      String.append_assoc, linesOf_append_break]

theorem length_flatMap_linesOf (ls : List String) :
    (ls.flatMap linesOf).length = ls.length + (ls.map lineBreaks).sum := by
  induction ls with
  | nil => rfl
  | cons l ls ih =>
    rw [List.flatMap_cons, List.length_append, ih, length_linesOf, List.length_cons, List.map_cons,
      List.sum_cons]
    omega

/-- Texts are their own lines exactly when none has a line break. -/
theorem flatMap_linesOf_eq_self_iff :
    ls.flatMap linesOf = ls ↔ ∀ l ∈ ls, lineBreaks l = 0 := by
  constructor
  · intro h l hl
    have hlength := length_flatMap_linesOf ls
    rw [h] at hlength
    have hsum : (ls.map lineBreaks).sum = 0 := by omega
    exact List.sum_eq_zero_iff_forall_eq_nat.1 hsum _ (List.mem_map_of_mem hl)
  · intro h
    induction ls with
    | nil => rfl
    | cons l ls ih =>
      rw [List.forall_mem_cons] at h
      rw [List.flatMap_cons, linesOf_eq_singleton h.1, ih h.2, List.singleton_append]

end

section

variable {value : PropertyValue → Resolution} {fill : AttributeRef → String}
  {inputs : List (String × PropertyValue)}

/-- An export line has the line breaks of its name and of its value. -/
theorem lineBreaks_exportLine (input : String × PropertyValue) :
    lineBreaks (exportLine value fill input) =
      lineBreaks input.1 + lineBreaks ((value input.2).render fill) := by
  have hexport : s!"export {input.1}=" = "export " ++ input.1 ++ "=" := rfl
  have hfixed : lineBreaks "export " = 0 ∧ lineBreaks "=" = 0 := by decide
  rw [exportLine, hexport, lineBreaks_append, lineBreaks_append, lineBreaks_append, hfixed.1,
    hfixed.2, Nat.zero_add, Nat.add_zero]

/-- Where names have no line break, those of the export lines are those of the values. -/
theorem map_lineBreaks_exportLine (hnames : ∀ input ∈ inputs, lineBreaks input.1 = 0) :
    (inputs.map (exportLine value fill)).map lineBreaks =
      inputs.map fun input => lineBreaks ((value input.2).render fill) := by
  rw [List.map_map]
  refine List.map_congr_left fun input hinput => ?_
  rw [Function.comp_apply, lineBreaks_exportLine, hnames input hinput, Nat.zero_add]

end

namespace Build

variable {job : Job} {body : String} {op : Operation} {a : Artifact}

/-- An operation whose script can be loaded has one: an export line for each input, each ended by a
line break, and then what was loaded. -/
theorem operationScript?_run (id : String) (scope : Scope) (q : Pass)
    (hop : op.implementation = some a) (href : a.hasReference = true)
    (hbody : job.script a = .ok body) : ∃ script q',
      operationScript? job id scope op q = (.ok (some script), q') ∧ ∀ fill,
        script.render fill = String.join ((op.inputs.map
          (exportLine (Eval.outcomeIn job.scene q' scope) fill)).map (· ++ "\n")) ++ body := by
  have hvisits := Eval.visits_pushExports job q.resolving scope .empty op.inputs
  obtain ⟨hstack, hmemo, hscript⟩ := hvisits.run q rfl
  generalize hrun : pushExports job scope .empty op.inputs q = run at hstack hmemo hscript
  obtain ⟨script, q'⟩ := run
  refine ⟨script.pushText body, q', ?_, fun fill => ?_⟩
  · have hload : loadScript job id a = pure body := by rw [loadScript, hbody]
    have hpush : (liftM (pushExports job scope .empty op.inputs) : Build FormatText) q =
        (.ok script, q') := by rw [lift_run, hrun]
    simp only [operationScript?, hop, href, if_true, hload, pure_bind, bind_of_ok hpush]
    rfl
  · have houtcome (input : String × PropertyValue) (hinput : input ∈ op.inputs) :
        job.scene.denote (Memo.answer q'.memo) scope input.2 =
          Eval.outcomeIn job.scene q' scope input.2 := by
      refine (Eval.outcomeIn_eq_denote fun k hk => ?_).symm
      rw [hstack, hmemo]
      exact Scene.done_visitAll (List.mem_flatMap.2 ⟨input, hinput, hk⟩)
    have hexports : script = Contributor.exports job.scene (Memo.answer q'.memo) scope .empty
        op.inputs := by
      rw [hmemo]
      exact hscript
    rw [FormatText.render_pushText, hexports, Contributor.render_exports, FormatText.render_empty,
      String.empty_append, List.map_map]
    refine congrArg (String.join · ++ body) (List.map_congr_left fun input hinput => ?_)
    rw [houtcome input hinput]
    rfl

/-- The script of an operation is made for whatever its inputs stand for, and its lines are those of
the exports and then those of the body. An input adds as many lines to its own as its value has line
breaks, so the exports are one line each exactly when no value has one. -/
theorem lines_of_operationScript (id : String) (scope : Scope) (q : Pass)
    (hop : op.implementation = some a) (href : a.hasReference = true)
    (hbody : job.script a = .ok body) (hnames : ∀ input ∈ op.inputs, lineBreaks input.1 = 0) :
    ∃ script q',
      operationScript? job id scope op q = (.ok (some script), q') ∧ ∀ fill,
        let value := Eval.outcomeIn job.scene q' scope
        let exports := op.inputs.map (exportLine value fill)
        script.render fill = String.join (exports.map (· ++ "\n")) ++ body ∧
        linesOf (script.render fill) = exports.flatMap linesOf ++ linesOf body ∧
        (linesOf (script.render fill)).length = op.inputs.length +
          (op.inputs.map fun input => lineBreaks ((value input.2).render fill)).sum +
            (linesOf body).length ∧
        (linesOf (script.render fill) = exports ++ linesOf body ↔
          ∀ input ∈ op.inputs, lineBreaks ((value input.2).render fill) = 0) := by
  obtain ⟨script, q', hrun, hrender⟩ := operationScript?_run id scope q hop href hbody
  refine ⟨script, q', hrun, fun fill => ?_⟩
  intro value exports
  have hlines : linesOf (script.render fill) = exports.flatMap linesOf ++ linesOf body := by
    rw [hrender, linesOf_join]
  have hbreaks : exports.map lineBreaks =
      op.inputs.map fun input => lineBreaks ((value input.2).render fill) :=
    map_lineBreaks_exportLine hnames
  refine ⟨hrender fill, hlines, ?_, ?_⟩
  · rw [hlines, List.length_append, length_flatMap_linesOf, hbreaks, List.length_map]
  · rw [hlines, List.append_cancel_right_eq, flatMap_linesOf_eq_self_iff,
      ← List.forall_mem_map (P := (· = 0)), hbreaks, List.forall_mem_map]

/-- An operation of the kiosk whose script greets on a port. -/
def greeting (motd : String) : Operation :=
  ⟨"start", some (.ofReference "start.sh"), [("MOTD", .scalar motd), ("PORT", .scalar "80")]⟩

theorem script_start : kioskJob.script (.ofReference "start.sh") = .ok "run" :=
  eq_ok_of_toOption (by decide +kernel)

/-- What a greeting is made of stands for itself. -/
theorem exports_greeting (motd : String) (q : Pass) (scope : Scope) (fill : AttributeRef → String) :
    (greeting motd).inputs.map (exportLine (Eval.outcomeIn kioskJob.scene q scope) fill) =
      ["export MOTD=" ++ motd, "export PORT=80"] := by
  have hmotd : "export " ++ "MOTD" ++ "=" = "export MOTD=" := by decide
  have hport : "export " ++ "PORT" ++ "=" ++ "80" = "export PORT=80" := by decide
  rw [← hmotd, ← hport]
  rfl

/-- A greeting of one line is exported on one line. -/
theorem lines_greeting : (Artifact.ofReference "start.sh").hasReference = true ∧
    kioskJob.script (.ofReference "start.sh") = .ok "run" ∧
    (∀ input ∈ (greeting "welcome").inputs, lineBreaks input.1 = 0) ∧
    ∃ script q', operationScript? kioskJob "kiosk" (kioskJob.scene.topology.nodeScope "kiosk")
        (greeting "welcome") (.start (.start .error false)) = (.ok (some script), q') ∧
      ∀ fill, linesOf (script.render fill) = ["export MOTD=welcome", "export PORT=80", "run"] := by
  have hnames : ∀ input ∈ (greeting "welcome").inputs, lineBreaks input.1 = 0 := by decide
  have hop : (greeting "welcome").implementation = some (.ofReference "start.sh") := rfl
  refine ⟨rfl, script_start, hnames, ?_⟩
  obtain ⟨script, q', hrun, hlines⟩ := lines_of_operationScript "kiosk"
    (kioskJob.scene.topology.nodeScope "kiosk") (.start (.start .error false)) hop rfl script_start
    hnames
  refine ⟨script, q', hrun, fun fill => ?_⟩
  obtain ⟨-, -, -, hone⟩ := hlines fill
  have hvalues : ∀ input ∈ (greeting "welcome").inputs, lineBreaks ((Eval.outcomeIn kioskJob.scene
      q' (kioskJob.scene.topology.nodeScope "kiosk") input.2).render fill) = 0 := by
    simp only [greeting, List.forall_mem_cons]
    exact ⟨(by decide : lineBreaks "welcome" = 0), (by decide : lineBreaks "80" = 0), nofun⟩
  rw [hone.2 hvalues, exports_greeting]
  decide

/-- A greeting of two lines is exported on two, the second of which is no export. -/
theorem not_lines_greeting : (Artifact.ofReference "start.sh").hasReference = true ∧
    kioskJob.script (.ofReference "start.sh") = .ok "run" ∧
    (∀ input ∈ (greeting "welcome\nback").inputs, lineBreaks input.1 = 0) ∧
    ∃ script q', operationScript? kioskJob "kiosk" (kioskJob.scene.topology.nodeScope "kiosk")
        (greeting "welcome\nback") (.start (.start .error false)) = (.ok (some script), q') ∧
      ∀ fill, linesOf (script.render fill) =
          ["export MOTD=welcome", "back", "export PORT=80", "run"] ∧
        linesOf (script.render fill) ≠ (greeting "welcome\nback").inputs.map
          (exportLine (Eval.outcomeIn kioskJob.scene q'
            (kioskJob.scene.topology.nodeScope "kiosk")) fill) ++ linesOf "run" := by
  have hop : (greeting "welcome\nback").implementation = some (.ofReference "start.sh") := rfl
  refine ⟨rfl, script_start, by decide, ?_⟩
  obtain ⟨script, q', hrun, hrender⟩ := operationScript?_run "kiosk"
    (kioskJob.scene.topology.nodeScope "kiosk") (.start (.start .error false)) hop rfl script_start
  refine ⟨script, q', hrun, fun fill => ?_⟩
  have hlines : linesOf (script.render fill) =
      ["export MOTD=welcome", "back", "export PORT=80", "run"] := by
    rw [hrender, exports_greeting]
    decide
  refine ⟨hlines, fun h => ?_⟩
  rw [hlines, exports_greeting] at h
  exact absurd h (by decide)

end Build

end DeployPlan
