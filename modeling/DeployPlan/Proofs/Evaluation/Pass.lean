import DeployPlan.Proofs.Evaluation.Visit

/-!
# Evaluations as visits

An evaluation visits the properties that a value reads, in order, and its outcome is what the value
stands for among the outcomes that the memo has in the end.
-/
namespace DeployPlan

namespace Eval

/-- In every pass that evaluates the properties on the stack, an evaluation visits the given
properties in turn, and its outcome is what `value` makes of their outcomes in the end. -/
structure Visits {α : Type} (s : Scene) (stack keys : List PropertyKey)
    (value : (PropertyKey → Resolution) → α) (evaluate : Eval α) : Prop where
  run : ∀ p : Pass, p.resolving = stack →
    (evaluate p).2.resolving = stack ∧
    (evaluate p).2.memo = s.visitAll stack p.memo keys ∧
    (evaluate p).1 = value (s.visitAll stack p.memo keys).answer
  congr : ∀ v w : PropertyKey → Resolution, (∀ k ∈ keys, v k = w k) → value v = value w

section

variable {α β : Type} {s : Scene} {stack keys others : List PropertyKey} {scope : Scope}
  {value : (PropertyKey → Resolution) → α} {x : Eval α} {f : α → Eval β}

theorem Visits.pure (a : α) : Visits s stack [] (fun _ => a) (pure a) :=
  ⟨fun _ hp => ⟨hp, rfl, rfl⟩, fun _ _ _ => rfl⟩

theorem Visits.note (level : Level) (message : String) (data : Fields) :
    Visits s stack [] (fun _ => ()) (note level message data) :=
  ⟨fun _ hp => ⟨hp, rfl, rfl⟩, fun _ _ _ => rfl⟩

/-- An evaluation that reads nothing comes before another. -/
theorem Visits.andThen {a : α} {next : (PropertyKey → Resolution) → β}
    (hx : Visits s stack [] (fun _ => a) x) (hf : Visits s stack keys next (f a)) :
    Visits s stack keys next (x >>= f) := by
  refine ⟨fun p hp => ?_, hf.congr⟩
  obtain ⟨hstack, hmemo, hval⟩ := hx.run p hp
  have hrun : (x >>= f) p = f a (x p).2 := by
    show f (x p).1 (x p).2 = f a (x p).2
    rw [hval]
  obtain ⟨hstack', hmemo', hval'⟩ := hf.run _ hstack
  rw [hmemo] at hmemo' hval'
  rw [hrun]
  exact ⟨hstack', hmemo', hval'⟩

theorem Visits.map (hx : Visits s stack keys value x) (g : α → β) :
    Visits s stack keys (fun v => g (value v)) (x >>= fun a => Pure.pure (g a)) := by
  refine ⟨fun p hp => ?_, fun v w hvw => congrArg g (hx.congr v w hvw)⟩
  obtain ⟨hstack, hmemo, hval⟩ := hx.run p hp
  refine ⟨hstack, hmemo, ?_⟩
  show g (x p).1 = g (value _)
  rw [hval]

/-- An evaluation comes before another that takes its outcome. What the first one reads keeps its
outcomes while the second one reads on. -/
theorem Visits.bind {next : α → (PropertyKey → Resolution) → β}
    (hx : Visits s stack keys value x) (hf : ∀ a, Visits s stack others (next a) (f a)) :
    Visits s stack (keys ++ others) (fun v => next (value v) v) (x >>= f) := by
  constructor
  · intro p hp
    obtain ⟨hstack, hmemo, hval⟩ := hx.run p hp
    obtain ⟨hstack', hmemo', hval'⟩ := (hf (x p).1).run _ hstack
    rw [hmemo, ← Scene.visitAll_append] at hmemo' hval'
    refine ⟨hstack', hmemo', hval'.trans ?_⟩
    have hkept : value (s.visitAll stack p.memo (keys ++ others)).answer = (x p).1 := by
      rw [hval, Scene.visitAll_append]
      exact hx.congr _ _ fun k hk => Scene.answer_visitAll_of_done (Scene.done_visitAll hk)
    show next (x p).1 _ = next (value _) _
    rw [hkept]
  · intro v w hvw
    show next (value v) v = next (value w) w
    rw [hx.congr v w fun k hk => hvw k (List.mem_append_left others hk)]
    exact (hf (value w)).congr v w fun k hk => hvw k (List.mem_append_right keys hk)

/-- What has been read stands for what it stood for then. -/
theorem Visits.eq_of_done (hx : Visits s stack keys value x) {p : Pass} (hp : p.resolving = stack)
    (h : ∀ k ∈ keys, s.Done stack p.memo k) : (x p).1 = value (Memo.answer p.memo) := by
  obtain ⟨-, -, hval⟩ := hx.run p hp
  rw [hval]
  exact hx.congr _ _ fun k hk => Scene.answer_visitAll_of_done (h k hk)

theorem Visits.missingNode (call : FunctionCall) (key : String) :
    Visits s stack [] (fun _ => .unresolved) (missingNode call key) :=
  (Visits.note ..).andThen (Visits.pure _)

theorem Visits.badArity (call : FunctionCall) :
    Visits s stack [] (fun _ => .unresolved) (badArity call) :=
  (Visits.note ..).andThen (Visits.pure _)

theorem Visits.unsupported (call : FunctionCall) :
    Visits s stack [] (fun _ => .unresolved) (unsupported call) :=
  (Visits.note ..).andThen (Visits.pure _)

theorem Visits.requirementTarget (n : NodeTemplate) (requirement : String) :
    Visits s stack []
      (fun _ => (n.relationshipFor? requirement).bind fun r => s.topology.node? r.target)
      (requirementTarget s n requirement) := by
  unfold Eval.requirementTarget
  split
  · next target h =>
    rw [h]
    exact Visits.pure _
  · next h =>
    rw [h]
    exact (Visits.note ..).andThen (Visits.pure _)

/-- Every property is evaluated with a visit of its own. -/
def ReadsByVisit (s : Scene) (stack : List PropertyKey) (read : PropertyKey → Eval Resolution) :
    Prop :=
  ∀ key, Visits s stack [key] (fun v => v key) (read key)

variable {read : PropertyKey → Eval Resolution}

theorem visits_resolveCall (hread : ReadsByVisit s stack read) (call : FunctionCall) :
    Visits s stack (s.readBy? scope call).toList (fun v => s.denoteCall v scope call)
      (resolveCall read s scope call) := by
  obtain ⟨name, args⟩ := call
  unfold resolveCall Scene.denoteCall Scene.readBy? Scene.targetOf?
  by_cases hproperty : name = "get_property"
  · simp only [if_pos hproperty]
    rcases args with _ | ⟨key, _ | ⟨second, _ | ⟨third, _ | _⟩⟩⟩
    case nil | cons.nil | cons.cons.cons.cons => exact Visits.badArity _
    · dsimp only
      cases s.entity? scope key with
      | none => exact Visits.missingNode _ key
      | some n => exact hread ⟨n.id, second⟩
    · dsimp only
      cases s.entity? scope key with
      | none => exact Visits.missingNode _ key
      | some n =>
        refine (Visits.requirementTarget n second).andThen ?_
        simp only [Option.bind_some]
        cases (n.relationshipFor? second).bind fun r => s.topology.node? r.target with
        | none => exact Visits.pure _
        | some target => exact hread ⟨target.id, third⟩
  simp only [if_neg hproperty]
  by_cases hattribute : name = "get_attribute"
  · simp only [if_pos hattribute]
    rcases args with _ | ⟨key, _ | ⟨second, _ | ⟨third, _ | _⟩⟩⟩
    case nil | cons.nil | cons.cons.cons.cons => exact Visits.badArity _
    · dsimp only
      cases s.entity? scope key with
      | none => exact (Visits.missingNode _ key).andThen (Visits.pure _)
      | some n => exact Visits.pure _
    · dsimp only
      cases s.entity? scope key with
      | none => exact Visits.missingNode _ key
      | some n =>
        refine (Visits.requirementTarget n second).andThen ?_
        simp only [Option.bind_some]
        cases (n.relationshipFor? second).bind fun r => s.topology.node? r.target with
        | none => exact Visits.pure _
        | some target => exact Visits.pure _
  · simp only [if_neg hattribute]
    exact Visits.unsupported _

mutual

theorem visits_resolveWith (hread : ReadsByVisit s stack read) (v : PropertyValue) :
    Visits s stack (s.reads scope v) (fun value => s.denote value scope v)
      (resolveWith read s scope v) := by
  match v with
  | .scalar _ | .complex _ | .list _ =>
    simp only [resolveWith, Scene.reads, Scene.denote]
    exact Visits.pure _
  | .other _ =>
    simp only [resolveWith, Scene.reads, Scene.denote]
    exact (Visits.note ..).andThen (Visits.pure _)
  | .call call =>
    simp only [resolveWith, Scene.reads, Scene.denote]
    exact visits_resolveCall hread call
  | .concat parts =>
    simp only [resolveWith, Scene.reads, Scene.denote]
    exact (visits_resolveParts hread .empty parts).map FormatText.toResolution

theorem visits_resolveParts (hread : ReadsByVisit s stack read) (format : FormatText)
    (parts : List PropertyValue) :
    Visits s stack (s.readsAll scope parts) (fun value => s.denoteParts value scope format parts)
      (resolveParts read s scope format parts) := by
  match parts with
  | [] =>
    simp only [resolveParts, Scene.readsAll, Scene.denoteParts]
    exact Visits.pure _
  | part :: parts =>
    simp only [resolveParts, Scene.readsAll, Scene.denoteParts]
    exact (visits_resolveWith hread part).bind
      fun outcome => visits_resolveParts hread (format.pushResolution outcome) parts

end

section

variable {p : Pass} {key : PropertyKey} {evaluate : PropertyValue → Eval Resolution}

theorem get_bind_run {α : Type} (f : Pass → Eval α) (p : Pass) : (get >>= f) p = f p p := rfl

theorem readProperty_of_knows (h : Memo.Knows p.memo key) :
    readProperty s evaluate key p = (Memo.answer p.memo key, p) := by
  have hmemo : p.recall? key = some (Memo.answer p.memo key) := Memo.lookup_of_knows h
  rw [readProperty, get_bind_run, hmemo]
  rfl

theorem readProperty_of_mem (h : ¬ Memo.Knows p.memo key) (hstack : key ∈ p.resolving) :
    readProperty s evaluate key p =
      (Eval.note .warn "cyclic get_property reference"
        [("node", .str key.node), ("property", .str key.property)] >>= fun _ =>
          (Pure.pure .unresolved : Eval Resolution)) p := by
  have hmemo : p.recall? key = none := Memo.lookup_of_not_knows h
  rw [readProperty, get_bind_run, hmemo]
  simp only [List.contains_iff_mem, hstack, if_true]

theorem readProperty_of_undeclared (h : ¬ Memo.Knows p.memo key) (hstack : key ∉ p.resolving)
    (hraw : s.declared? key = none) : readProperty s evaluate key p = (.unresolved, p) := by
  have hmemo : p.recall? key = none := Memo.lookup_of_not_knows h
  rw [Scene.declared?] at hraw
  rw [readProperty, get_bind_run, hmemo]
  simp only [List.contains_iff_mem, hstack, if_false, hraw]
  rfl

theorem readProperty_of_new {raw : PropertyValue} (h : ¬ Memo.Knows p.memo key)
    (hstack : key ∉ p.resolving) (hraw : s.declared? key = some raw) :
    readProperty s evaluate key p = remember key (evaluate raw) p := by
  have hmemo : p.recall? key = none := Memo.lookup_of_not_knows h
  rw [Scene.declared?] at hraw
  rw [readProperty, get_bind_run, hmemo]
  simp only [List.contains_iff_mem, hstack, if_false, hraw]

/-- The outcome of a property is the one remembered, or the one of an evaluation that visits what
its declared value reads. -/
theorem visits_readProperty
    (h : ∀ raw, s.declared? key = some raw → key ∉ stack →
      Visits s (key :: stack) (s.readsOf key) (fun v => s.valueOf v key) (evaluate raw)) :
    Visits s stack [key] (fun v => v key) (readProperty s evaluate key) := by
  refine ⟨fun p hp => ?_, fun v w hvw => hvw key List.mem_cons_self⟩
  rw [Scene.visitAll_cons, Scene.visitAll_nil]
  by_cases hknows : Memo.Knows p.memo key
  · rw [Scene.visit_of_done (.inl hknows), readProperty_of_knows hknows]
    exact ⟨hp, rfl, rfl⟩
  by_cases hstack : key ∈ stack
  · rw [Scene.visit_of_done (.inr (.inl hstack)), Memo.answer_of_not_knows hknows,
      readProperty_of_mem hknows (by rwa [hp])]
    exact ⟨hp, rfl, rfl⟩
  cases hraw : s.declared? key with
  | none =>
    rw [Scene.visit_of_done (.inr (.inr hraw)), Memo.answer_of_not_knows hknows,
      readProperty_of_undeclared hknows (by rwa [hp]) hraw]
    exact ⟨hp, rfl, rfl⟩
  | some raw =>
    rw [readProperty_of_new hknows (by rwa [hp]) hraw]
    have hnew : ¬ s.Done stack p.memo key := by
      rintro (hk | hk | hk)
      · exact hknows hk
      · exact hstack hk
      · rw [hraw] at hk
        cases hk
    obtain ⟨hin, hm, hv⟩ := (h raw hraw hstack).run
      { p with resolving := key :: p.resolving } (by rw [hp])
    rw [Scene.visit_of_new hnew, Memo.answer_cons_self]
    refine ⟨?_, ?_, hv⟩
    · show List.tail _ = stack
      rw [hin, List.tail_cons]
    · show (key, _) :: _ = _
      rw [hm, hv]

end

/-- A depth of at least the number of properties that are not being evaluated is never used up. -/
theorem visits_propertyWithin {d : Nat} (hd : s.undone stack ≤ d) :
    ReadsByVisit s stack (propertyWithin s d) := by
  induction d generalizing stack with
  | zero =>
    refine fun key => visits_readProperty fun raw hraw hstack => ?_
    have hlt := Scene.undone_cons_lt (Option.ne_none_iff_exists'.2 ⟨raw, hraw⟩) hstack
    omega
  | succ d ih =>
    refine fun key => visits_readProperty fun raw hraw hstack => ?_
    have hlt := Scene.undone_cons_lt (Option.ne_none_iff_exists'.2 ⟨raw, hraw⟩) hstack
    have hread : ReadsByVisit s (key :: stack) (propertyWithin s d) := ih (by omega)
    simp only [Scene.readsOf, Scene.valueOf, hraw]
    exact visits_resolveWith hread raw

theorem visits_nodeProperty (s : Scene) (stack : List PropertyKey) (key : PropertyKey) :
    Visits s stack [key] (fun v => v key) (nodeProperty s key) :=
  visits_propertyWithin (s.undone_le stack) key

theorem visits_resolve (s : Scene) (stack : List PropertyKey) (scope : Scope) (v : PropertyValue) :
    Visits s stack (s.reads scope v) (fun value => s.denote value scope v) (resolve s scope v) :=
  visits_resolveWith (visits_nodeProperty s stack) v

/-- Reading all properties of a node visits them in name order. -/
theorem visits_nodeProperties (s : Scene) (stack : List PropertyKey) (id : String) :
    Visits s stack ((s.propertyNames id).map (PropertyKey.mk id))
      (fun v => (s.propertyNames id).map fun name => (name, v ⟨id, name⟩))
      (nodeProperties s id) := by
  unfold nodeProperties
  induction s.propertyNames id with
  | nil => exact Visits.pure []
  | cons name names ih =>
    rw [List.mapM_cons]
    have hfirst := (visits_nodeProperty s stack ⟨id, name⟩).map (Prod.mk name)
    exact hfirst.bind fun first => ih.map (first :: ·)

end

end Eval

end DeployPlan
