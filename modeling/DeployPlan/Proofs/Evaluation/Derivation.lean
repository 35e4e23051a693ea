import DeployPlan.Proofs.Evaluation.Query

/-!
# Derivations of evaluations

The rules of evaluation have no bound: a property that is read for the first time is evaluated
through whatever its declared value reads. From every pass there is exactly one derivation by the
rules, and the evaluation with a bound computes what it derives. So every evaluation comes to an
end; it leaves the properties that are being evaluated as they were, keeps every outcome that was
remembered, and opens no property that is being evaluated.
-/
namespace DeployPlan

/-- A property whose declared value is evaluated, and those that are being evaluated before it. -/
structure Opening where
  key : PropertyKey
  resolving : List PropertyKey
deriving DecidableEq, Repr

/-- The course of an evaluation: the properties that it opens in turn, its result and the pass after
it. -/
structure Course (α : Type) where
  opened : List Opening
  result : α
  pass : Pass

namespace Pass

/-- A pass in which a property counts as being evaluated. -/
def opening (p : Pass) (key : PropertyKey) : Pass := { p with resolving := key :: p.resolving }

/-- A pass after the evaluation of the property that was opened last. -/
def closing (p : Pass) (key : PropertyKey) (outcome : Resolution) : Pass :=
  { p with resolving := p.resolving.tail, memo := (key, outcome) :: p.memo }

end Pass

namespace Scene

/-- A read of a property that is being evaluated, which is cut. -/
def cutRead (key : PropertyKey) : Eval Resolution := do
  Eval.note .warn "cyclic get_property reference"
    [("node", .str key.node), ("property", .str key.property)]
  return .unresolved

/-- A call that reads no property. -/
def readless (s : Scene) (scope : Scope) (call : FunctionCall) : Eval Resolution :=
  Eval.resolveCall (fun _ => return .unresolved) s scope call

mutual

/-- A property value is evaluated in a scope from a pass. -/
inductive Evaluates (s : Scene) : Scope → PropertyValue → Pass → Course Resolution → Prop
  | scalar (scope : Scope) (text : String) (p : Pass) :
      Evaluates s scope (.scalar text) p ⟨[], .resolved (.str text), p⟩
  | complex (scope : Scope) (fields : Fields) (p : Pass) :
      Evaluates s scope (.complex fields) p ⟨[], .resolved (.obj fields), p⟩
  | list (scope : Scope) (items : List Json) (p : Pass) :
      Evaluates s scope (.list items) p ⟨[], .resolved (.arr items), p⟩
  | other (scope : Scope) (raw : Json) (p : Pass) :
      Evaluates s scope (.other raw) p
        ⟨[], .unresolved, (Eval.note .warn "unrecognized property value" [("value", raw)] p).2⟩
  | concat {scope : Scope} {parts : List PropertyValue} {p : Pass} {c : Course FormatText}
      (joined : Joins s scope .empty parts p c) :
      Evaluates s scope (.concat parts) p ⟨c.opened, c.result.toResolution, c.pass⟩
  | read {scope : Scope} {call : FunctionCall} {key : PropertyKey} {p : Pass}
      {c : Course Resolution} (reads : s.readBy? scope call = some key)
      (answered : Answers s key p c) : Evaluates s scope (.call call) p c
  | readless {scope : Scope} {call : FunctionCall} (reads : s.readBy? scope call = none)
      (p : Pass) :
      Evaluates s scope (.call call) p
        ⟨[], (s.readless scope call p).1, (s.readless scope call p).2⟩

/-- The parts of a concatenation are evaluated in turn and pushed onto a format text. -/
inductive Joins (s : Scene) :
    Scope → FormatText → List PropertyValue → Pass → Course FormatText → Prop
  | nil (scope : Scope) (format : FormatText) (p : Pass) :
      Joins s scope format [] p ⟨[], format, p⟩
  | cons {scope : Scope} {format : FormatText} {part : PropertyValue} {parts : List PropertyValue}
      {p : Pass} {first : Course Resolution} {rest : Course FormatText}
      (evaluated : Evaluates s scope part p first)
      (joined : Joins s scope (format.pushResolution first.result) parts first.pass rest) :
      Joins s scope format (part :: parts) p
        ⟨first.opened ++ rest.opened, rest.result, rest.pass⟩

/-- A property is read: its outcome is remembered, the read is cut, nothing is declared, or the
declared value is evaluated in the scope of its node. -/
inductive Answers (s : Scene) : PropertyKey → Pass → Course Resolution → Prop
  | known {key : PropertyKey} {p : Pass} {outcome : Resolution}
      (recalled : p.recall? key = some outcome) : Answers s key p ⟨[], outcome, p⟩
  | cut {key : PropertyKey} {p : Pass} (unknown : p.recall? key = none)
      (cyclic : key ∈ p.resolving) : Answers s key p ⟨[], .unresolved, (cutRead key p).2⟩
  | undeclared {key : PropertyKey} {p : Pass} (unknown : p.recall? key = none)
      (fresh : key ∉ p.resolving) (missing : s.declared? key = none) :
      Answers s key p ⟨[], .unresolved, p⟩
  | opened {key : PropertyKey} {p : Pass} {raw : PropertyValue} {c : Course Resolution}
      (unknown : p.recall? key = none) (fresh : key ∉ p.resolving)
      (declared : s.declared? key = some raw)
      (evaluated : Evaluates s (s.topology.nodeScope key.node) raw (p.opening key) c) :
      Answers s key p ⟨⟨key, p.resolving⟩ :: c.opened, c.result, c.pass.closing key c.result⟩

end

end Scene

/-- A course leaves the properties being evaluated as they were and keeps the outcomes that were
remembered. It opens a property only when that is neither remembered nor being evaluated, never
opens one twice, and remembers just those that it opens. -/
structure Course.Restores {α : Type} (c : Course α) (p : Pass) : Prop where
  resolving : c.pass.resolving = p.resolving
  keeps : ∀ key outcome, p.recall? key = some outcome → c.pass.recall? key = some outcome
  opens : ∀ o ∈ c.opened,
    o.key ∉ o.resolving ∧ p.resolving <:+ o.resolving ∧ p.recall? o.key = none
  remembers : ∀ key, p.recall? key = none →
    (c.pass.recall? key ≠ none ↔ key ∈ c.opened.map (·.key))
  once : (c.opened.map (·.key)).Nodup

namespace Course.Restores

variable {α β : Type} {p : Pass}

/-- A course that opens nothing and remembers what the pass did. -/
theorem of_unopened {result : α} {after : Pass} (hstack : after.resolving = p.resolving)
    (hmemo : after.memo = p.memo) : Restores ⟨[], result, after⟩ p := by
  have hrecall (key : PropertyKey) : after.recall? key = p.recall? key := by
    rw [Pass.recall?, Pass.recall?, hmemo]
  constructor
  · exact hstack
  · intro key outcome h
    rw [← h]
    exact hrecall key
  · intro o ho
    cases ho
  · intro key h
    simp [hrecall key, h]
  · exact List.nodup_nil

theorem map {c : Course α} (hc : c.Restores p) (f : α → β) :
    Restores ⟨c.opened, f c.result, c.pass⟩ p :=
  ⟨hc.resolving, hc.keeps, hc.opens, hc.remembers, hc.once⟩

/-- A course that goes on after another. -/
theorem append {first : Course α} {rest : Course β} (hfirst : first.Restores p)
    (hrest : rest.Restores first.pass) :
    Restores ⟨first.opened ++ rest.opened, rest.result, rest.pass⟩ p := by
  have hunknown {key : PropertyKey} (h : first.pass.recall? key = none) : p.recall? key = none := by
    by_contra hknown
    obtain ⟨outcome, houtcome⟩ := Option.ne_none_iff_exists'.1 hknown
    rw [hfirst.keeps key outcome houtcome] at h
    cases h
  constructor
  · exact hrest.resolving.trans hfirst.resolving
  · intro key outcome h
    exact hrest.keeps key outcome (hfirst.keeps key outcome h)
  · intro o ho
    rcases List.mem_append.1 ho with ho | ho
    · exact hfirst.opens o ho
    · obtain ⟨hfresh, hbelow, hnew⟩ := hrest.opens o ho
      exact ⟨hfresh, hfirst.resolving ▸ hbelow, hunknown hnew⟩
  · intro key h
    rw [List.map_append, List.mem_append, ← hfirst.remembers key h]
    cases hknown : first.pass.recall? key with
    | none => simpa using hrest.remembers key hknown
    | some outcome => simp [hrest.keeps key outcome hknown]
  · rw [List.map_append, List.nodup_append]
    refine ⟨hfirst.once, hrest.once, ?_⟩
    rintro key hmem _ hmem' rfl
    obtain ⟨o, ho, rfl⟩ := List.mem_map.1 hmem
    obtain ⟨o', ho', hkey⟩ := List.mem_map.1 hmem'
    have hknown := (hfirst.remembers o.key (hfirst.opens o ho).2.2).2 hmem
    obtain ⟨-, -, hnew⟩ := hrest.opens o' ho'
    exact hknown (hkey ▸ hnew)

/-- The evaluation of a declared value is closed and its outcome remembered. While it runs, its
property is being evaluated, so that nothing in its course opens it again. -/
theorem close {c : Course Resolution} {key : PropertyKey} (hunknown : p.recall? key = none)
    (hfresh : key ∉ p.resolving) (hc : c.Restores (p.opening key)) :
    Restores ⟨⟨key, p.resolving⟩ :: c.opened, c.result, c.pass.closing key c.result⟩ p := by
  have hother {k : PropertyKey} (hk : k ≠ key) :
      (c.pass.closing key c.result).recall? k = c.pass.recall? k :=
    Memo.lookup_cons_of_ne hk
  have hself : (c.pass.closing key c.result).recall? key = some c.result :=
    List.lookup_cons_self
  have hnotin : key ∉ c.opened.map (·.key) := by
    intro hmem
    obtain ⟨o, ho, rfl⟩ := List.mem_map.1 hmem
    obtain ⟨hoff, hbelow, -⟩ := hc.opens o ho
    exact hoff (hbelow.subset List.mem_cons_self)
  constructor
  · show c.pass.resolving.tail = p.resolving
    rw [hc.resolving]
    rfl
  · intro k outcome h
    have hk : k ≠ key := by
      rintro rfl
      rw [hunknown] at h
      cases h
    rw [hother hk]
    exact hc.keeps k outcome h
  · intro o ho
    rcases List.mem_cons.1 ho with rfl | ho
    · exact ⟨hfresh, List.suffix_rfl, hunknown⟩
    · obtain ⟨hoff, hbelow, hnew⟩ := hc.opens o ho
      exact ⟨hoff, (List.suffix_cons key p.resolving).trans hbelow, hnew⟩
  · intro k h
    rw [List.map_cons, List.mem_cons]
    by_cases hk : k = key
    · subst hk
      simp [hself]
    · simpa [hother hk, hk] using hc.remembers k h
  · exact List.nodup_cons.2 ⟨hnotin, hc.once⟩

end Course.Restores

namespace Scene

variable {s : Scene} {stack : List PropertyKey} {scope : Scope} {call : FunctionCall}
  {key : PropertyKey} {read : PropertyKey → Eval Resolution}

/-- A call that reads a property does nothing else. -/
theorem resolveCall_of_reads (h : s.readBy? scope call = some key) :
    Eval.resolveCall read s scope call = read key := by
  obtain ⟨name, args⟩ := call
  unfold readBy? targetOf? at h
  unfold Eval.resolveCall
  by_cases hname : name = "get_property"
  · simp only [if_pos hname] at h ⊢
    rcases args with _ | ⟨entity, _ | ⟨second, _ | ⟨third, _ | _⟩⟩⟩
    case nil | cons.nil | cons.cons.cons.cons => cases h
    · obtain ⟨n, hn, rfl⟩ := Option.map_eq_some_iff.1 h
      simp only [hn]
    · obtain ⟨target, htarget, rfl⟩ := Option.map_eq_some_iff.1 h
      obtain ⟨n, hn, hrelated⟩ := Option.bind_eq_some_iff.1 htarget
      simp only [hn, Eval.requirementTarget, hrelated]
      rfl
  · rw [if_neg hname] at h
    cases h

theorem resolveCall_of_readless (h : s.readBy? scope call = none) :
    Eval.resolveCall read s scope call = s.readless scope call := by
  obtain ⟨name, args⟩ := call
  unfold readBy? targetOf? at h
  unfold readless Eval.resolveCall
  by_cases hname : name = "get_property"
  · simp only [if_pos hname] at h ⊢
    rcases args with _ | ⟨entity, _ | ⟨second, _ | ⟨third, _ | _⟩⟩⟩
    case nil | cons.nil | cons.cons.cons.cons => rfl
    · have hn := Option.map_eq_none_iff.1 h
      simp only [hn]
    · cases hn : s.entity? scope entity with
      | none => simp only [hn]
      | some n =>
        simp only [hn, Option.bind_some, Option.map_eq_none_iff] at h
        simp only [hn, Eval.requirementTarget, h]
        rfl
  · simp only [if_neg hname]

/-- What is noted about a call that reads nothing leaves the rest of the pass as it was. -/
theorem restores_readless (h : s.readBy? scope call = none) (p : Pass) :
    Course.Restores ⟨[], (s.readless scope call p).1, (s.readless scope call p).2⟩ p := by
  have hcall : Eval.resolveCall (Eval.nodeProperty s) s scope call = s.readless scope call :=
    resolveCall_of_readless h
  have hvisits : Eval.Visits s p.resolving (s.readBy? scope call).toList
      (fun v => s.denoteCall v scope call) (s.readless scope call) :=
    hcall ▸ Eval.visits_resolveCall (Eval.visits_nodeProperty s p.resolving) call
  obtain ⟨hstack, hmemo, -⟩ := hvisits.run p rfl
  rw [h] at hmemo
  exact .of_unopened hstack hmemo

mutual

/-- Whatever is evaluated, its course restores the stack. -/
theorem Evaluates.restores {scope : Scope} {v : PropertyValue} {p : Pass} {c : Course Resolution}
    (h : s.Evaluates scope v p c) : c.Restores p := by
  match h with
  | .scalar .. | .complex .. | .list .. | .other .. => exact .of_unopened rfl rfl
  | .concat joined => exact joined.restores.map _
  | .read _ answered => exact answered.restores
  | .readless reads p => exact restores_readless reads p
termination_by structural h

theorem Joins.restores {scope : Scope} {format : FormatText} {parts : List PropertyValue}
    {p : Pass} {c : Course FormatText} (h : s.Joins scope format parts p c) : c.Restores p := by
  match h with
  | .nil .. => exact .of_unopened rfl rfl
  | .cons evaluated joined => exact evaluated.restores.append joined.restores
termination_by structural h

theorem Answers.restores {key : PropertyKey} {p : Pass} {c : Course Resolution}
    (h : s.Answers key p c) : c.Restores p := by
  match h with
  | .known _ | .cut .. | .undeclared .. => exact .of_unopened rfl rfl
  | .opened unknown fresh _ evaluated => exact evaluated.restores.close unknown fresh
termination_by structural h

end

mutual

/-- The rules leave no choice: an evaluation has one course. -/
theorem Evaluates.unique {scope : Scope} {v : PropertyValue} {p : Pass}
    {c c' : Course Resolution} (h : s.Evaluates scope v p c) (h' : s.Evaluates scope v p c') :
    c = c' := by
  match h, h' with
  | .scalar .., .scalar .. | .complex .., .complex .. | .list .., .list .. => rfl
  | .other .., .other .. => rfl
  | .concat joined, .concat joined' => rw [joined.unique joined']
  | .read reads answered, .read reads' answered' =>
    obtain rfl := Option.some.inj (reads.symm.trans reads')
    exact answered.unique answered'
  | .read reads _, .readless reads' _ | .readless reads' _, .read reads _ =>
    rw [reads] at reads'
    cases reads'
  | .readless .., .readless .. => rfl
termination_by structural h

theorem Joins.unique {scope : Scope} {format : FormatText} {parts : List PropertyValue}
    {p : Pass} {c c' : Course FormatText} (h : s.Joins scope format parts p c)
    (h' : s.Joins scope format parts p c') : c = c' := by
  match h, h' with
  | .nil .., .nil .. => rfl
  | .cons evaluated joined, .cons evaluated' joined' =>
    obtain rfl := evaluated.unique evaluated'
    rw [joined.unique joined']
termination_by structural h

theorem Answers.unique {key : PropertyKey} {p : Pass} {c c' : Course Resolution}
    (h : s.Answers key p c) (h' : s.Answers key p c') : c = c' := by
  match h, h' with
  | .known recalled, .known recalled' =>
    obtain rfl := Option.some.inj (recalled.symm.trans recalled')
    rfl
  | .cut .., .cut .. | .undeclared .., .undeclared .. => rfl
  | .opened _ _ declared evaluated, .opened _ _ declared' evaluated' =>
    obtain rfl := Option.some.inj (declared.symm.trans declared')
    rw [evaluated.unique evaluated']
  | .known recalled, .cut unknown _ | .known recalled, .undeclared unknown _ _
  | .known recalled, .opened unknown _ _ _ | .cut unknown _, .known recalled
  | .undeclared unknown _ _, .known recalled | .opened unknown _ _ _, .known recalled =>
    rw [recalled] at unknown
    cases unknown
  | .cut _ cyclic, .undeclared _ fresh _ | .cut _ cyclic, .opened _ fresh _ _
  | .undeclared _ fresh _, .cut _ cyclic | .opened _ fresh _ _, .cut _ cyclic =>
    exact absurd cyclic fresh
  | .undeclared _ _ missing, .opened _ _ declared _
  | .opened _ _ declared _, .undeclared _ _ missing =>
    rw [declared] at missing
    cases missing
termination_by structural h

end

/-- While the properties on the stack are being evaluated, `read` answers by the rules. -/
def Follows (s : Scene) (stack : List PropertyKey) (read : PropertyKey → Eval Resolution) : Prop :=
  ∀ (key : PropertyKey) (p : Pass), p.resolving = stack →
    ∃ c, s.Answers key p c ∧ read key p = (c.result, c.pass)

theorem bind_run {α β : Type} (x : Eval α) (f : α → Eval β) (p : Pass) :
    (x >>= f) p = f (x p).1 (x p).2 := rfl

mutual

/-- An evaluation that reads by the rules goes by them. -/
theorem Follows.evaluates (hread : s.Follows stack read) (scope : Scope) (v : PropertyValue)
    {p : Pass} (hp : p.resolving = stack) :
    ∃ c, s.Evaluates scope v p c ∧ Eval.resolveWith read s scope v p = (c.result, c.pass) := by
  match v with
  | .scalar text => exact ⟨_, .scalar scope text p, by rw [Eval.resolveWith]; rfl⟩
  | .complex fields => exact ⟨_, .complex scope fields p, by rw [Eval.resolveWith]; rfl⟩
  | .list items => exact ⟨_, .list scope items p, by rw [Eval.resolveWith]; rfl⟩
  | .other raw => exact ⟨_, .other scope raw p, by rw [Eval.resolveWith]; rfl⟩
  | .concat parts =>
    obtain ⟨c, hc, hrun⟩ := hread.joins scope .empty parts hp
    refine ⟨_, .concat hc, ?_⟩
    rw [Eval.resolveWith, bind_run, hrun]
    rfl
  | .call call =>
    rw [Eval.resolveWith]
    cases hreads : s.readBy? scope call with
    | none =>
      rw [resolveCall_of_readless hreads]
      exact ⟨_, .readless hreads p, rfl⟩
    | some key =>
      rw [resolveCall_of_reads hreads]
      obtain ⟨c, hc, hrun⟩ := hread key p hp
      exact ⟨c, .read hreads hc, hrun⟩

theorem Follows.joins (hread : s.Follows stack read) (scope : Scope) (format : FormatText)
    (parts : List PropertyValue) {p : Pass} (hp : p.resolving = stack) :
    ∃ c, s.Joins scope format parts p c ∧
      Eval.resolveParts read s scope format parts p = (c.result, c.pass) := by
  match parts with
  | [] => exact ⟨_, .nil scope format p, by rw [Eval.resolveParts]; rfl⟩
  | part :: parts =>
    obtain ⟨first, hfirst, hrun⟩ := hread.evaluates scope part hp
    have hstack : first.pass.resolving = stack := hfirst.restores.resolving.trans hp
    obtain ⟨rest, hrest, hrun'⟩ :=
      hread.joins scope (format.pushResolution first.result) parts hstack
    refine ⟨_, .cons hfirst hrest, ?_⟩
    rw [Eval.resolveParts, bind_run, hrun]
    exact hrun'

end

theorem remember_run (key : PropertyKey) (evaluate : Eval Resolution) (p : Pass) :
    Eval.remember key evaluate p =
      ((evaluate (p.opening key)).1,
        (evaluate (p.opening key)).2.closing key (evaluate (p.opening key)).1) := rfl

/-- A property is answered by the rules when the declared values of properties that are not being
evaluated are evaluated by them. -/
theorem follows_readProperty {evaluate : PropertyKey → PropertyValue → Eval Resolution}
    (h : ∀ key raw, s.declared? key = some raw → key ∉ stack →
      ∀ p : Pass, p.resolving = key :: stack →
        ∃ c, s.Evaluates (s.topology.nodeScope key.node) raw p c ∧
          evaluate key raw p = (c.result, c.pass)) :
    s.Follows stack fun key => Eval.readProperty s (evaluate key) key := by
  rintro key p rfl
  by_cases hknows : Memo.Knows p.memo key
  · exact ⟨_, .known (Memo.lookup_of_knows hknows), Eval.readProperty_of_knows hknows⟩
  have hunknown : p.recall? key = none := Memo.lookup_of_not_knows hknows
  by_cases hcyclic : key ∈ p.resolving
  · exact ⟨_, .cut hunknown hcyclic, Eval.readProperty_of_mem hknows hcyclic⟩
  cases hraw : s.declared? key with
  | none =>
    exact ⟨_, .undeclared hunknown hcyclic hraw,
      Eval.readProperty_of_undeclared hknows hcyclic hraw⟩
  | some raw =>
    obtain ⟨c, hc, hrun⟩ := h key raw hraw hcyclic (p.opening key) rfl
    refine ⟨_, .opened hunknown hcyclic hraw hc, ?_⟩
    show Eval.readProperty s (evaluate key) key p = _
    rw [Eval.readProperty_of_new hknows hcyclic hraw, remember_run, hrun]

/-- A depth of at least the number of declared properties that are not being evaluated is never
used up: every property that is opened leaves one fewer. -/
theorem follows_propertyWithin {d : Nat} (hd : s.undone stack ≤ d) :
    s.Follows stack (Eval.propertyWithin s d) := by
  induction d generalizing stack with
  | zero =>
    refine follows_readProperty fun key raw hraw hfresh => ?_
    have hlt := undone_cons_lt (Option.ne_none_iff_exists'.2 ⟨raw, hraw⟩) hfresh
    omega
  | succ d ih =>
    refine follows_readProperty fun key raw hraw hfresh p hp => ?_
    have hlt := undone_cons_lt (Option.ne_none_iff_exists'.2 ⟨raw, hraw⟩) hfresh
    have hread : s.Follows (key :: stack) (Eval.propertyWithin s d) := ih (by omega)
    exact hread.evaluates _ raw hp

theorem follows_nodeProperty (s : Scene) (stack : List PropertyKey) :
    s.Follows stack (Eval.nodeProperty s) :=
  follows_propertyWithin (s.undone_le stack)

/-- Every evaluation comes to an end. From whatever pass a property is answered or a value is
evaluated, the rules derive one course, which is the one that the evaluation takes. It leaves the
properties being evaluated as they were and keeps every outcome that was remembered, and no property
is opened while it is being evaluated. -/
theorem evaluation_ends (s : Scene) (p : Pass) :
    (∀ key : PropertyKey, ∃ c,
      (∀ c', s.Answers key p c' ↔ c' = c) ∧
      Eval.nodeProperty s key p = (c.result, c.pass) ∧ c.Restores p) ∧
    ∀ (scope : Scope) (v : PropertyValue), ∃ c,
      (∀ c', s.Evaluates scope v p c' ↔ c' = c) ∧
      Eval.resolve s scope v p = (c.result, c.pass) ∧ c.Restores p := by
  have hread : s.Follows p.resolving (Eval.nodeProperty s) := follows_nodeProperty s p.resolving
  constructor
  · intro key
    obtain ⟨c, hc, hrun⟩ := hread key p rfl
    refine ⟨c, fun c' => ⟨fun hc' => hc'.unique hc, ?_⟩, hrun, hc.restores⟩
    rintro rfl
    exact hc
  · intro scope v
    obtain ⟨c, hc, hrun⟩ := hread.evaluates scope v rfl
    refine ⟨c, fun c' => ⟨fun hc' => hc'.unique hc, ?_⟩, hrun, hc.restores⟩
    rintro rfl
    exact hc

/-- A property that reads itself is evaluated once; what it reads of the properties being evaluated
before it is cut as well. -/
example : (Eval.nodeProperty shop ⟨"store", "loop"⟩
    ⟨.start .error false, [], [⟨"store", "port"⟩]⟩).2 =
    ⟨.start .error false, [(⟨"store", "loop"⟩, .resolved (.str ""))], [⟨"store", "port"⟩]⟩ := by
  decide +kernel

end Scene

end DeployPlan
