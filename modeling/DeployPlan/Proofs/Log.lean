import DeployPlan.Log
import Mathlib.Logic.Function.Iterate
import Mathlib.Logic.Relation

/-!
# What a log keeps

While a plan is built its log goes on: entries that report no failure are recorded, tags are pushed
and dropped. However long that lasts, the log keeps the first entries up to its limit, with one
notice after them when there were more, and none of them reports a failure.
-/
namespace DeployPlan.Log

/-- An entry that reports no failure is recorded. -/
inductive Noted : Log → Log → Prop
  | record {level : Level} (mild : level ≠ .error) (log : Log) (message : String)
      (data : Option Json) : Noted log (log.record level message data)

/-- A log after any number of such entries in turn. -/
abbrev Notes : Log → Log → Prop := Relation.ReflTransGen Noted

/-- One thing that happens to a log: an entry that reports no failure, a push or a pop. -/
inductive Step : Log → Log → Prop
  | note (log : Log) {log' : Log} (noted : Noted log log') : Step log log'
  | push (log : Log) (tags : Fields) : Step log (log.pushTags tags).2
  | pop (log : Log) : Step log log.popTags

/-- A log after any number of such things in turn. -/
abbrev GoesOn : Log → Log → Prop := Relation.ReflTransGen Step

/-- A log keeps entries up to the limit, and the notice after them when there were more. -/
def Bounded (log : Log) : Prop :=
  log.truncated = false ∧ log.captured.length ≤ captureLimit ∨
    log.truncated = true ∧ ∃ es, es.length = captureLimit ∧ log.captured = es ++ [truncationNotice]

/-- No entry that is kept reports a failure. -/
def Mild (log : Log) : Prop := ∀ e ∈ log.captured, e.level ≠ .error

variable {log log' : Log} {e : LogEntry}

theorem bounded_start (threshold : Level) (echo : Bool) : (start threshold echo).Bounded :=
  .inl ⟨rfl, Nat.zero_le _⟩

theorem mild_start (threshold : Level) (echo : Bool) : (start threshold echo).Mild :=
  List.forall_mem_nil _

@[simp] theorem captured_echoEntry (log : Log) (e : LogEntry) :
    (log.echoEntry e).captured = log.captured := by
  unfold echoEntry
  split <;> rfl

@[simp] theorem truncated_echoEntry (log : Log) (e : LogEntry) :
    (log.echoEntry e).truncated = log.truncated := by
  unfold echoEntry
  split <;> rfl

@[simp] theorem captured_pushTags (log : Log) (tags : Fields) :
    (log.pushTags tags).2.captured = log.captured := by
  unfold pushTags
  split <;> rfl

@[simp] theorem truncated_pushTags (log : Log) (tags : Fields) :
    (log.pushTags tags).2.truncated = log.truncated := by
  unfold pushTags
  split <;> rfl

@[simp] theorem threshold_echoEntry (log : Log) (e : LogEntry) :
    (log.echoEntry e).threshold = log.threshold := by
  unfold echoEntry
  split <;> rfl

@[simp] theorem threshold_capture (log : Log) (e : LogEntry) :
    (log.capture e).threshold = log.threshold := by
  unfold capture
  split
  · rfl
  · split <;> rfl

@[simp] theorem threshold_record (log : Log) (level : Level) (message : String)
    (data : Option Json) : (log.record level message data).threshold = log.threshold := by
  unfold record
  split <;> simp

theorem Bounded.congr (h : log.Bounded) (hcaptured : log'.captured = log.captured)
    (htruncated : log'.truncated = log.truncated) : log'.Bounded := by
  rwa [Bounded, hcaptured, htruncated]

/-- A bounded log keeps one more entry while there is room, else the notice. -/
theorem Bounded.captured_capture (h : log.Bounded) (e : LogEntry) :
    (log.capture e).captured = if log.captured.length < captureLimit then log.captured ++ [e]
      else log.captured.take captureLimit ++ [truncationNotice] := by
  unfold capture
  split
  · rfl
  · next hfull =>
    rcases h with ⟨htruncated, hlength⟩ | ⟨htruncated, es, hlength, hcaptured⟩
    · have hall : log.captured.take captureLimit = log.captured :=
        List.take_of_length_le hlength
      simp [htruncated, hall]
    · simp [htruncated, hcaptured, ← hlength]

theorem Bounded.capture (h : log.Bounded) (e : LogEntry) : (log.capture e).Bounded := by
  unfold Log.capture
  split
  · next hroom =>
    rcases h with ⟨htruncated, -⟩ | ⟨-, es, hlength, hcaptured⟩
    · refine .inl ⟨htruncated, ?_⟩
      rw [List.length_append, List.length_singleton]
      exact hroom
    · rw [hcaptured, List.length_append, List.length_singleton] at hroom
      omega
  · next hfull =>
    rcases h with ⟨htruncated, hlength⟩ | ⟨htruncated, hkept⟩
    · have hlength : log.captured.length = captureLimit := by omega
      simp only [htruncated, Bool.false_eq_true, if_false]
      exact .inr ⟨rfl, log.captured, hlength, rfl⟩
    · rw [if_pos htruncated]
      exact .inr ⟨htruncated, hkept⟩

/-- An entry at the gravest level is recorded whatever the threshold is. -/
theorem record_error (log : Log) (message : String) (data : Option Json) :
    log.record .error message data = (log.echoEntry (log.entry .error message data)).capture
      (log.entry .error message data) := by
  have hrank : ¬ Level.error.rank < log.threshold.rank := by
    cases log.threshold <;> decide
  rw [record, if_neg hrank]

theorem Bounded.captured_record_error (h : log.Bounded) (message : String) (data : Option Json) :
    (log.record .error message data).captured =
      if log.captured.length < captureLimit then
        log.captured ++ [log.entry .error message data]
      else log.captured.take captureLimit ++ [truncationNotice] := by
  have hecho : (log.echoEntry (log.entry .error message data)).Bounded :=
    h.congr (captured_echoEntry _ _) (truncated_echoEntry _ _)
  rw [record_error, hecho.captured_capture, captured_echoEntry]

/-- Whatever happens to a bounded log, it stays one. -/
theorem Step.bounded (hstep : Step log log') (h : log.Bounded) : log'.Bounded := by
  cases hstep with
  | note hnote =>
    cases hnote with | record _ _ message data =>
    unfold Log.record
    split
    · exact h
    · exact (h.congr (captured_echoEntry _ _) (truncated_echoEntry _ _)).capture _
  | push tags => exact h.congr (captured_pushTags log tags) (truncated_pushTags log tags)
  | pop => exact h.congr rfl rfl

theorem Mild.capture (h : log.Mild) (he : e.level ≠ .error) : (log.capture e).Mild := by
  have hadd {x : LogEntry} (hx : x.level ≠ .error) :
      ∀ y ∈ log.captured ++ [x], y.level ≠ .error := by
    rw [List.forall_mem_append]
    exact ⟨h, List.forall_mem_singleton.2 hx⟩
  unfold Log.capture
  split
  · exact hadd he
  · split
    · exact h
    · exact hadd (by decide)

/-- No failure is reported by what happens to a log. -/
theorem Step.mild (hstep : Step log log') (h : log.Mild) : log'.Mild := by
  cases hstep with
  | note hnote =>
    cases hnote with | record hlevel _ message data =>
    unfold Log.record
    split
    · exact h
    · exact Mild.capture (by rwa [Mild, captured_echoEntry]) hlevel
  | push tags => rwa [Mild, captured_pushTags]
  | pop => exact h

theorem Bounded.goesOn (h : log.Bounded) (hrun : GoesOn log log') : log'.Bounded := by
  induction hrun with
  | refl => exact h
  | tail _ hstep ih => exact hstep.bounded ih

theorem Mild.goesOn (h : log.Mild) (hrun : GoesOn log log') : log'.Mild := by
  induction hrun with
  | refl => exact h
  | tail _ hstep ih => exact hstep.mild ih

theorem Notes.goesOn (h : Notes log log') : GoesOn log log' :=
  Relation.ReflTransGen.mono (fun log _ hnote => .note log hnote) log log' h

theorem captured_capture (log : Log) (e : LogEntry) :
    ∃ es, (log.capture e).captured = log.captured ++ es ∧
      ∀ x ∈ es, x = truncationNotice ∨ x = e := by
  unfold capture
  split
  · exact ⟨[e], rfl, fun x hx => .inr (List.mem_singleton.1 hx)⟩
  · split
    · exact ⟨[], (List.append_nil _).symm, List.forall_mem_nil _⟩
    · exact ⟨[truncationNotice], rfl, fun x hx => .inl (List.mem_singleton.1 hx)⟩

/-- A record adds at most its entry, or the notice in its place. -/
theorem captured_record (log : Log) (level : Level) (message : String) (data : Option Json) :
    ∃ es, (log.record level message data).captured = log.captured ++ es ∧
      ∀ x ∈ es, x = truncationNotice ∨ x = log.entry level message data := by
  unfold record
  split
  · exact ⟨[], (List.append_nil _).symm, List.forall_mem_nil _⟩
  · obtain ⟨es, hcaptured, hes⟩ := captured_capture
      (log.echoEntry (log.entry level message data)) (log.entry level message data)
    rw [captured_echoEntry] at hcaptured
    exact ⟨es, hcaptured, hes⟩

theorem Notes.tagStack (h : Notes log log') : log'.tagStack = log.tagStack := by
  induction h with
  | refl => rfl
  | tail _ hnote ih =>
    cases hnote
    rw [record_tagStack, ih]

/-- Notes leave the tags in force as they are, so that all that is captured has the same tags. -/
theorem Notes.captured (h : Notes log log') :
    ∃ es, log'.captured = log.captured ++ es ∧
      ∀ e ∈ es, e = truncationNotice ∨ e.level ≠ .error ∧ e.tags = log.scopeTags := by
  induction h with
  | refl => exact ⟨[], (List.append_nil _).symm, List.forall_mem_nil _⟩
  | @tail mid _ hrun hnote ih =>
    obtain ⟨es, hcaptured, hes⟩ := ih
    cases hnote with | @record level hmild _ message data =>
    obtain ⟨more, hmore, hadded⟩ := captured_record mid level message data
    refine ⟨es ++ more, ?_, ?_⟩
    · rw [hmore, hcaptured, List.append_assoc]
    · rw [List.forall_mem_append]
      refine ⟨hes, fun e he => (hadded e he).imp_right ?_⟩
      rintro rfl
      refine ⟨hmild, ?_⟩
      show mid.scopeTags = log.scopeTags
      rw [scopeTags, Notes.tagStack hrun, scopeTags]

section

variable {level : Level} {message : String} {data : Option Json}

theorem length_record (h : log.threshold.rank ≤ level.rank)
    (hroom : log.captured.length < captureLimit) :
    (log.record level message data).captured.length = log.captured.length + 1 := by
  rw [record, if_neg (Nat.not_lt.2 h), capture, if_pos (by rwa [captured_echoEntry])]
  simp

/-- Entries that are grave enough fill the room that is left one by one. -/
theorem length_iterate_record (h : log.threshold.rank ≤ level.rank) {k : Nat}
    (hroom : log.captured.length + k ≤ captureLimit) :
    ((fun log => log.record level message data)^[k] log).captured.length =
      log.captured.length + k := by
  induction k generalizing log with
  | zero => rfl
  | succ k ih =>
    have hone : (log.record level message data).captured.length = log.captured.length + 1 :=
      length_record h (by omega)
    rw [Function.iterate_succ_apply, ih (by rwa [threshold_record]) (by omega), hone]
    omega

end

end DeployPlan.Log
