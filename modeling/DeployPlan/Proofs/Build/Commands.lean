import DeployPlan.Proofs.Build.Contributors
import DeployPlan.Proofs.FormatText

/-!
# The commands of a node

Each command is the scripts of the contributors to its slot in order, a line break between each two;
a slot without contributors has the command that does nothing, or none.
-/
namespace DeployPlan

namespace NodePlan

theorem commands_setCommand (p : NodePlan) (other slot : CommandSlot) (v : PlanValue) :
    (p.setCommand other v).commands[slot]? =
      if other = slot then some v else p.commands[slot]? := by
  rw [setCommand, Std.ExtTreeMap.getElem?_insert]
  simp only [Std.LawfulEqCmp.compare_eq_iff_eq]

/-- Slots are set one by one, each to the command that it has. -/
theorem commands_foldl (f : CommandSlot → Option PlanValue) (slots : List CommandSlot)
    (p : NodePlan) (slot : CommandSlot) :
    (slots.foldl (fun p other =>
      match f other with
      | some v => p.setCommand other v
      | none => p) p).commands[slot]? =
    if slot ∈ slots then (f slot).or p.commands[slot]? else p.commands[slot]? := by
  induction slots generalizing p with
  | nil => rfl
  | cons other slots ih =>
    rw [List.foldl_cons, ih]
    cases hf : f other with
    | none =>
      by_cases hslot : slot = other
      · subst hslot
        simp [hf]
      · simp [hslot]
    | some v =>
      rw [commands_setCommand]
      by_cases hslot : slot = other
      · subst hslot
        simp [hf]
      · simp [hslot, Ne.symm hslot]

theorem mem_all (slot : CommandSlot) : slot ∈ CommandSlot.all := by
  cases slot <;> decide

theorem commands_setCommands (cs : List Contribution) (p : NodePlan) (slot : CommandSlot) :
    (p.setCommands cs).commands[slot]? =
      (Contribution.command? slot cs).or p.commands[slot]? := by
  have hset := commands_foldl (Contribution.command? · cs) CommandSlot.all p slot
  rw [if_pos (mem_all slot)] at hset
  exact hset

theorem commands_setIdle (noop : String) (p : NodePlan) (slot : CommandSlot) :
    (p.setIdle noop).commands[slot]? =
      if slot ∈ idleSlots then some (.ofText noop) else p.commands[slot]? :=
  commands_foldl (fun _ => some (.ofText noop)) idleSlots p slot

end NodePlan

namespace Contributor

variable {job : Job} {fill : AttributeRef → String} {value : PropertyKey → Resolution}

theorem render_exports (s : Scene) (scope : Scope) (script : FormatText)
    (inputs : List (String × PropertyValue)) :
    (exports s value scope script inputs).render fill = script.render fill ++
      String.join (inputs.map fun input =>
        s!"export {input.1}=" ++ (s.denote value scope input.2).render fill ++ "\n") := by
  unfold exports
  induction inputs generalizing script with
  | nil => simp
  | cons input inputs ih =>
    rw [List.foldl_cons, ih, List.map_cons, String.join_cons]
    simp only [FormatText.pushExport, FormatText.render_pushText,
      FormatText.render_pushResolution, String.append_assoc]

theorem gaps_exports (s : Scene) (scope : Scope) (script : FormatText)
    (inputs : List (String × PropertyValue)) :
    (exports s value scope script inputs).gaps = script.gaps ++
      inputs.flatMap fun input => (s.denote value scope input.2).gaps := by
  unfold exports
  induction inputs generalizing script with
  | nil => simp
  | cons input inputs ih =>
    rw [List.foldl_cons, ih, List.flatMap_cons]
    simp only [FormatText.pushExport, FormatText.gaps_pushText,
      FormatText.gaps_pushResolution, List.append_assoc]

/-- The text of the script: one export line for each input, then the body. `value` gives what inputs
stand for in a scope. -/
def text (job : Job) (value : Scope → PropertyValue → Resolution) (fill : AttributeRef → String)
    (c : Contributor) : String :=
  String.join (c.inputs.map fun input =>
    s!"export {input.1}=" ++ (value c.scope input.2).render fill ++ "\n") ++ c.body job

/-- Some input is left to run time. -/
def HasGap (value : Scope → PropertyValue → Resolution) (c : Contributor) : Prop :=
  ∃ input ∈ c.inputs, (value c.scope input.2).gaps ≠ []

theorem render_script (c : Contributor) :
    (c.script job value).render fill = c.text job (job.scene.denote value) fill := by
  rw [script, FormatText.render_pushText, render_exports, FormatText.render_empty,
    String.empty_append, text]

theorem gaps_script_ne_nil (c : Contributor) :
    (c.script job value).gaps ≠ [] ↔ c.HasGap (job.scene.denote value) := by
  rw [script, FormatText.gaps_pushText, gaps_exports, FormatText.gaps_empty, List.nil_append,
    ne_eq, List.flatMap_eq_nil_iff, HasGap]
  push Not
  rfl

-- Unfolding a script to compare it would evaluate its body.
theorem scriptsFor_map_contribution (cs : List Contributor) (slot : CommandSlot) :
    Contribution.scriptsFor slot (cs.map (contribution job value)) =
      (cs.filter (·.slot = slot)).map fun c => c.script job value := by
  have hslot : (fun x : Contribution => decide (x.slot = slot)) ∘ contribution job value =
      fun c => decide (c.slot = slot) := by
    funext c
    exact decide_eq_decide.2 (by rw [contribution])
  simp only [Contribution.scriptsFor, List.filter_map, hslot, List.map_map, Function.comp_def,
    contribution]

theorem command?_eq_none (job : Job) (value : PropertyKey → Resolution) {cs : List Contributor}
    {slot : CommandSlot} (h : cs.filter (·.slot = slot) = []) :
    Contribution.command? slot (cs.map (contribution job value)) = none := by
  rw [Contribution.command?, scriptsFor_map_contribution, h, List.map_nil]

/-- The command of a slot is the scripts of its contributors, a line break between each two, and is
left to run time exactly when one of them has a gap. -/
theorem command?_eq_some (job : Job) (value : PropertyKey → Resolution) {cs : List Contributor}
    {slot : CommandSlot} (h : cs.filter (·.slot = slot) ≠ []) :
    ∃ v, Contribution.command? slot (cs.map (contribution job value)) = some v ∧
      (∀ fill, v.render fill = "\n".intercalate ((cs.filter (·.slot = slot)).map
        fun c => c.text job (job.scene.denote value) fill)) ∧
      (v.isDeferred = true ↔
        ∃ c ∈ cs.filter (·.slot = slot), c.HasGap (job.scene.denote value)) := by
  obtain ⟨v, hv, hrender, hdeferred⟩ := PlanValue.ofResolution?_toResolution
    (FormatText.joinLines ((cs.filter (·.slot = slot)).map fun c => c.script job value))
  refine ⟨v, ?_, fun fill => ?_, ?_⟩
  · obtain ⟨c, rest, hcons⟩ := List.exists_cons_of_ne_nil h
    rw [Contribution.command?, scriptsFor_map_contribution, ← hv, hcons, List.map_cons]
  · simp only [hrender, FormatText.render_joinLines, List.map_map, Function.comp_def,
      render_script]
  · rw [hdeferred, FormatText.gaps_joinLines, ne_eq, List.flatMap_eq_nil_iff]
    push Not
    simp only [List.mem_map, exists_exists_and_eq_and]
    exact exists_congr fun c => and_congr_right fun _ => gaps_script_ne_nil c

def forSlot (job : Job) (n : NodeTemplate) (slot : CommandSlot) : List Contributor :=
  (all job n).filter (·.slot = slot)

theorem text_congr {f g : Scope → PropertyValue → Resolution} {c : Contributor}
    (h : ∀ input ∈ c.inputs, f c.scope input.2 = g c.scope input.2) :
    c.text job f fill = c.text job g fill := by
  have hlines : (c.inputs.map fun input =>
      s!"export {input.1}=" ++ (f c.scope input.2).render fill ++ "\n") =
      c.inputs.map fun input =>
        s!"export {input.1}=" ++ (g c.scope input.2).render fill ++ "\n" :=
    List.map_congr_left fun input hinput => by rw [h input hinput]
  rw [text, text, hlines]

theorem hasGap_congr {f g : Scope → PropertyValue → Resolution} {c : Contributor}
    (h : ∀ input ∈ c.inputs, f c.scope input.2 = g c.scope input.2) :
    c.HasGap f ↔ c.HasGap g :=
  exists_congr fun input => and_congr_right fun hinput => by rw [h input hinput]

end Contributor

namespace Eval

/-- What a value stands for in a scope when it is evaluated after a pass. -/
def outcomeIn (s : Scene) (p : Pass) (scope : Scope) (v : PropertyValue) : Resolution :=
  (resolve s scope v p).1

/-- A value whose reads have been visited stands for what it stood for then. -/
theorem outcomeIn_eq_denote {s : Scene} {p : Pass} {scope : Scope} {v : PropertyValue}
    (h : ∀ k ∈ s.reads scope v, s.Done p.resolving p.memo k) :
    outcomeIn s p scope v = s.denote (Memo.answer p.memo) scope v :=
  (visits_resolve s p.resolving scope v).eq_of_done rfl h

end Eval

namespace Build

open Contributor

/-- The commands that a build puts into a plan without commands: the artifact of every contributor
has been read; a slot with contributors has their scripts in order, a line break between each two,
left to run time exactly when one of them has a gap; of the others, three have the command that does
nothing. Inputs stand for what they are evaluated to when the build ends. -/
theorem commands_of_putCommands {job : Job} {n : NodeTemplate} {p p' : NodePlan} {q q' : Pass}
    (hp : p.commands = ∅) (h : putCommands job n p q = (.ok p', q')) :
    (∀ c ∈ all job n, job.script c.artifact = .ok (c.body job)) ∧
    ∀ slot,
      (forSlot job n slot = [] → p'.commands[slot]? =
        if slot ∈ [.launch, .stop, .checkRunning] then
          some (.ofText job.settings.lifecycle.noopCommand)
        else none) ∧
      (forSlot job n slot ≠ [] → ∃ v, p'.commands[slot]? = some v ∧
        (∀ fill, v.render fill = "\n".intercalate ((forSlot job n slot).map fun c =>
          c.text job (Eval.outcomeIn job.scene q') fill)) ∧
        (v.isDeferred = true ↔
          ∃ c ∈ forSlot job n slot, c.HasGap (Eval.outcomeIn job.scene q'))) := by
  obtain ⟨cs, q₁, hcs, hput⟩ := bind_eq_ok h
  cases hput
  obtain ⟨hstack, hmemo, rfl, hbodies⟩ := (contributes_all job q.resolving n).run q q' cs rfl hcs
  have hsame (c : Contributor) (hc : c ∈ all job n) (input : String × PropertyValue)
      (hinput : input ∈ c.inputs) : Eval.outcomeIn job.scene q' c.scope input.2 =
        job.scene.denote (Memo.answer q'.memo) c.scope input.2 := by
    refine Eval.outcomeIn_eq_denote fun k hk => ?_
    rw [hstack, hmemo]
    exact Scene.done_visitAll
      (List.mem_flatMap.2 ⟨c, hc, List.mem_flatMap.2 ⟨input, hinput, hk⟩⟩)
  refine ⟨hbodies, fun slot => ⟨fun hnil => ?_, fun hne => ?_⟩⟩
  · rw [NodePlan.commands_setCommands, command?_eq_none job _ hnil, Option.none_or,
      NodePlan.commands_setIdle, hp, Std.ExtTreeMap.getElem?_empty]
    rfl
  · obtain ⟨v, hv, hrender, hdeferred⟩ := command?_eq_some job (Memo.answer q'.memo) hne
    refine ⟨v, ?_, fun fill => ?_, ?_⟩
    · rw [NodePlan.commands_setCommands, hv, Option.some_or]
    · rw [hrender]
      refine congrArg _ (List.map_congr_left fun c hc => ?_)
      exact (text_congr (hsame c (List.mem_of_mem_filter hc))).symm
    · rw [hdeferred]
      refine exists_congr fun c => and_congr_right fun hc => ?_
      exact (hasGap_congr (hsame c (List.mem_of_mem_filter hc))).symm

/-- A node that is started by a script of another machine with two inputs, and has a relationship to
itself with a script at each end. -/
def kiosk : NodeTemplate :=
  ⟨"kiosk", "Kiosk", none, none, ∅, ["self"],
    [⟨"loop", "self", "kiosk", "ConnectsTo", ∅, [⟨"Configure", [
      ⟨"pre_configure_target", some (.ofReference "target.sh"), []⟩,
      ⟨"pre_configure_source", some (.ofReference "source.sh"), []⟩]⟩]⟩],
    [⟨"Standard", [⟨"start", some (.ofReference "https://kiosk.example/start.sh"),
      [("PORT", .scalar "80"), ("IP", .call ⟨"get_attribute", ["SELF", "ip"]⟩)]⟩]⟩], []⟩

/-- Scripts in the working directory, and another machine that sends one. -/
def kioskStore : Store where
  toFileTree := (((FileTree.emptyAt []).put ⟨"start.sh"⟩ (.file "run".toUTF8)).put ⟨"target.sh"⟩
    (.file "accept".toUTF8)).put ⟨"source.sh"⟩ (.file "connect".toUTF8)
  fetch url :=
    if url = "https://kiosk.example/start.sh" then .ok "run"
    else .error (.unanswered s!"{url}: status code 404")

def kioskJob : Job where
  scene := ⟨⟨"kiosk", [kiosk], [], [], none⟩, []⟩
  registry := .empty
  files := kioskStore
  settings := .initial ⟨none, none⟩

/-- The pass after its commands are built, from a pass that has evaluated nothing. -/
def kioskPass : Pass :=
  (putCommands kioskJob kiosk (.start .scriptedProcess .empty) (.start (.start .error false))).2

theorem launch_kiosk : forSlot kioskJob kiosk .launch = [⟨.launch,
    kioskJob.scene.topology.nodeScope "kiosk",
    [("PORT", .scalar "80"), ("IP", .call ⟨"get_attribute", ["SELF", "ip"]⟩)],
    .ofReference "https://kiosk.example/start.sh"⟩] := by
  decide +kernel

theorem preConfigure_kiosk : forSlot kioskJob kiosk .preConfigure =
    ["source.sh", "target.sh"].map fun reference => ⟨.preConfigure,
      kioskJob.scene.topology.relationshipScope "kiosk" (kiosk.relationships[0]), [],
      .ofReference reference⟩ := by
  decide +kernel

theorem outcomeIn_kiosk : Eval.outcomeIn kioskJob.scene kioskPass
    (kioskJob.scene.topology.nodeScope "kiosk") (.call ⟨"get_attribute", ["SELF", "ip"]⟩) =
      .deferred (.gap ⟨"kiosk", "ip"⟩) := by
  decide +kernel

theorem text_launch_kiosk (fill : AttributeRef → String) :
    "\n".intercalate ((forSlot kioskJob kiosk .launch).map fun c =>
      c.text kioskJob (Eval.outcomeIn kioskJob.scene kioskPass) fill) =
    "export PORT=80\nexport IP=" ++ fill ⟨"kiosk", "ip"⟩ ++ "\nrun" := by
  have hbody : (kioskJob.script (.ofReference "https://kiosk.example/start.sh")).toOption.getD "" =
      "run" := by
    decide +kernel
  have hhead : "export PORT=" ++ "80" ++ "\n" ++ "export IP=" = "export PORT=80\nexport IP=" := by
    decide +kernel
  have htail : "\n" ++ "run" = "\nrun" := by decide +kernel
  rw [launch_kiosk, List.map_singleton, String.intercalate_singleton, text, body, hbody]
  show String.join ["export PORT=" ++ "80" ++ "\n", "export IP=" ++ Resolution.render fill
    (Eval.outcomeIn kioskJob.scene kioskPass _ _) ++ "\n"] ++ "run" = _
  rw [outcomeIn_kiosk, String.join_cons, String.join_cons, String.join_nil, String.append_empty,
    ← hhead, ← htail, Resolution.render]
  simp only [String.append_assoc]

theorem text_preConfigure_kiosk (fill : AttributeRef → String) :
    "\n".intercalate ((forSlot kioskJob kiosk .preConfigure).map fun c =>
      c.text kioskJob (Eval.outcomeIn kioskJob.scene kioskPass) fill) = "connect\naccept" := by
  have hconnect : (kioskJob.script (.ofReference "source.sh")).toOption.getD "" = "connect" := by
    decide +kernel
  have haccept : (kioskJob.script (.ofReference "target.sh")).toOption.getD "" = "accept" := by
    decide +kernel
  rw [preConfigure_kiosk]
  simp only [List.map_cons, List.map_nil, text, body, hconnect, haccept, String.join_nil,
    String.empty_append]
  decide +kernel

/-- The commands of the node: the script at the end where the relationship starts comes before the
one at the end where it leads. -/
theorem putCommands_kiosk : ∃ p',
    putCommands kioskJob kiosk (.start .scriptedProcess .empty) (.start (.start .error false)) =
      (.ok p', kioskPass) ∧
    (∃ v, p'.commands[CommandSlot.launch]? = some v ∧ v.isDeferred = true ∧ ∀ fill,
      v.render fill = "export PORT=80\nexport IP=" ++ fill ⟨"kiosk", "ip"⟩ ++ "\nrun") ∧
    (∃ v, p'.commands[CommandSlot.preConfigure]? = some v ∧ v.isDeferred = false ∧ ∀ fill,
      v.render fill = "connect\naccept") ∧
    p'.commands[CommandSlot.stop]? = some (.ofText "true") ∧
    p'.commands[CommandSlot.install]? = none := by
  have hok : (putCommands kioskJob kiosk (.start .scriptedProcess .empty)
      (.start (.start .error false))).1.isOk = true := by
    decide +kernel
  obtain ⟨p', hrun⟩ := eq_ok_of_isOk hok
  obtain ⟨-, hslots⟩ := commands_of_putCommands rfl hrun
  refine ⟨p', hrun, ?_, ?_, ?_, ?_⟩
  · obtain ⟨v, hv, hrender, hdeferred⟩ := (hslots .launch).2 (by rw [launch_kiosk]; simp)
    refine ⟨v, hv, ?_, fun fill => (hrender fill).trans (text_launch_kiosk fill)⟩
    rw [hdeferred, launch_kiosk]
    refine ⟨_, List.mem_cons_self, ("IP", _), List.mem_cons_of_mem _ List.mem_cons_self, ?_⟩
    show Resolution.gaps (Eval.outcomeIn kioskJob.scene kioskPass _ _) ≠ []
    rw [outcomeIn_kiosk]
    exact List.cons_ne_nil _ _
  · obtain ⟨v, hv, hrender, hdeferred⟩ :=
      (hslots .preConfigure).2 (by rw [preConfigure_kiosk]; simp)
    refine ⟨v, hv, ?_, fun fill => (hrender fill).trans (text_preConfigure_kiosk fill)⟩
    rw [← Bool.not_eq_true, hdeferred, preConfigure_kiosk]
    rintro ⟨c, hc, input, hinput, -⟩
    obtain ⟨reference, -, rfl⟩ := List.mem_map.1 hc
    cases hinput
  · rw [(hslots .stop).1 (by decide +kernel)]
    rfl
  · rw [(hslots .install).1 (by decide +kernel)]
    rfl

end Build

end DeployPlan
