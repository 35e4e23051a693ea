import DeployPlan.Proofs.Log
import DeployPlan.Proofs.Overlay

/-!
# Logs after calls

A log is told what happened by calls in any order. It has then captured the first entries up to the
limit that the calls since the last take made, with one notice after them when there were more, each
with the tags that were on the stack when it was made. Calls that undo what they push leave the
stack as it was.
-/
namespace DeployPlan

namespace Log

/-- A call that changes a log. -/
inductive Call where
  | record (level : Level) (message : String) (data : Option Json)
  | push (tags : Fields)
  | pop
  | take
deriving DecidableEq

namespace Call

def perform (log : Log) : Call → Log
  | record level message data => log.record level message data
  | push tags => (log.pushTags tags).2
  | pop => log.popTags
  | take => log.take.2

/-- The tag stack after a call. A push without a tag that can be kept is refused. -/
def stackAfter (stack : List Fields) : Call → List Fields
  | push tags => if keptTags tags = [] then stack else keptTags tags :: stack
  | pop => stack.tail
  | record .. => stack
  | take => stack

/-- The entry that a call makes: data counts only when it is an object, and under each name the tag
pushed last. -/
def made? (threshold : Level) (stack : List Fields) : Call → Option LogEntry
  | record level message data =>
    if threshold.rank ≤ level.rank then
      some {
        level
        message
        data := match data with
          | some (.obj fields) => some fields
          | _ => none
        tags := Entries.lastUnderNames stack.reverse.flatten }
    else none
  | _ => none

end Call

def run (log : Log) (calls : List Call) : Log := calls.foldl Call.perform log

/-- The entries that calls make, but for those that one of the calls takes out. -/
def madeSinceTake (threshold : Level) : List Fields → List Call → List LogEntry
  | _, [] => []
  | stack, c :: cs =>
    (if .take ∈ cs then none else c.made? threshold stack).toList ++
      madeSinceTake threshold (c.stackAfter stack) cs

/-- Calls that drop every push that is kept, and nothing else. -/
inductive Balanced : List Call → Prop
  | nil : Balanced []
  | record (level : Level) (message : String) (data : Option Json) {rest : List Call}
      (balanced : Balanced rest) : Balanced (.record level message data :: rest)
  | take {rest : List Call} (balanced : Balanced rest) : Balanced (.take :: rest)
  | refused {tags : Fields} (none_kept : keptTags tags = []) {rest : List Call}
      (balanced : Balanced rest) : Balanced (.push tags :: rest)
  | dropped {tags : Fields} (some_kept : keptTags tags ≠ []) {inner rest : List Call}
      (inner_balanced : Balanced inner) (balanced : Balanced rest) :
      Balanced (.push tags :: (inner ++ .pop :: rest))

/-- A log keeps the first of some entries up to the limit, and the notice after them when there are
more. -/
structure Keeps (log : Log) (es : List LogEntry) : Prop where
  captured : log.captured =
    es.take captureLimit ++ if captureLimit < es.length then [truncationNotice] else []
  truncated : log.truncated = true ↔ captureLimit < es.length

variable {log : Log} {es : List LogEntry} {cs : List Call}

theorem keeps_start (threshold : Level) (echo : Bool) : (start threshold echo).Keeps [] :=
  ⟨rfl, iff_of_false Bool.false_ne_true (Nat.not_lt_zero _)⟩

/-- What is kept decides what a log keeps. -/
theorem Keeps.congr {log' : Log} (h : log.Keeps es) (hcaptured : log'.captured = log.captured)
    (htruncated : log'.truncated = log.truncated) : log'.Keeps es := by
  constructor
  · rw [hcaptured, h.captured]
  · rw [htruncated, h.truncated]

theorem Keeps.bounded (h : log.Keeps es) : log.Bounded := by
  by_cases hover : captureLimit < es.length
  · have hfull : (es.take captureLimit).length = captureLimit :=
      List.length_take_of_le (Nat.le_of_lt hover)
    refine .inr ⟨h.truncated.2 hover, es.take captureLimit, hfull, ?_⟩
    rw [h.captured, if_pos hover]
  · refine .inl ⟨Bool.eq_false_iff.2 (mt h.truncated.1 hover), ?_⟩
    rw [h.captured, if_neg hover, List.append_nil]
    exact List.length_take_le captureLimit es

theorem truncated_capture (log : Log) (e : LogEntry) : (log.capture e).truncated = true ↔
    log.truncated = true ∨ captureLimit ≤ log.captured.length := by
  unfold capture
  split
  · next hroom => simp [Nat.not_le.2 hroom]
  · next hfull =>
    have hfull : captureLimit ≤ log.captured.length := Nat.not_lt.1 hfull
    split <;> simp [*]

/-- There is room for an entry, or it is one of those beyond the limit. -/
theorem Keeps.capture (h : log.Keeps es) (e : LogEntry) : (log.capture e).Keeps (es ++ [e]) := by
  have hlength : (es ++ [e]).length = es.length + 1 := List.length_append
  -- with exactly as many entries as the limit there is no notice yet, and this one brings it
  by_cases hroom : es.length < captureLimit
  · have hcaptured : log.captured = es := by
      rw [h.captured, List.take_of_length_le (by omega), if_neg (by omega), List.append_nil]
    constructor
    · rw [h.bounded.captured_capture, hcaptured, if_pos hroom,
        List.take_of_length_le (by omega), if_neg (by omega), List.append_nil]
    · rw [truncated_capture, h.truncated, hcaptured]
      omega
  · have hfirst : log.captured.take captureLimit = es.take captureLimit := by
      rw [h.captured]
      exact List.take_left' (List.length_take_of_le (Nat.not_lt.1 hroom))
    have hfull : captureLimit ≤ log.captured.length := by
      rw [h.captured, List.length_append, List.length_take]
      omega
    constructor
    · rw [h.bounded.captured_capture, if_neg (Nat.not_lt.2 hfull), hfirst,
        List.take_append_of_le_length (Nat.not_lt.1 hroom), if_pos (by omega)]
    · exact iff_of_true ((truncated_capture log e).2 (.inr hfull)) (by omega)

theorem scopeTags_eq_lastUnderNames (log : Log) :
    log.scopeTags = Entries.lastUnderNames log.tagStack.reverse.flatten := by
  have hflat : log.scopeTags = Entries.putAll [] log.tagStack.reverse.flatten :=
    (List.foldl_flatten ..).symm
  rw [hflat, Entries.putAll_nil]

theorem made?_record (log : Log) (level : Level) (message : String) (data : Option Json) :
    (Call.record level message data).made? log.threshold log.tagStack =
      if log.threshold.rank ≤ level.rank then some (log.entry level message data) else none := by
  have hdata : data.bind Json.asObject? = match data with
      | some (.obj fields) => some fields
      | _ => none := by
    rcases data with _ | _ | _ | _ | _ | _ | _ <;> rfl
  rw [Log.entry, scopeTags_eq_lastUnderNames, hdata]
  rfl

theorem Keeps.record (h : log.Keeps es) (level : Level) (message : String) (data : Option Json) :
    (log.record level message data).Keeps
      (es ++ ((Call.record level message data).made? log.threshold log.tagStack).toList) := by
  rw [made?_record, Log.record]
  split
  · next hlow =>
    rw [if_neg (Nat.not_le.2 hlow), Option.toList_none, List.append_nil]
    exact h
  · next hhigh =>
    rw [if_pos (Nat.not_lt.1 hhigh), Option.toList_some]
    exact (h.congr (captured_echoEntry _ _) (truncated_echoEntry _ _)).capture _

/-- A call adds the entry that it makes, and a take leaves none. -/
theorem Keeps.perform (h : log.Keeps es) (c : Call) : (c.perform log).Keeps
    ((if c = .take then [] else es) ++ (c.made? log.threshold log.tagStack).toList) := by
  cases c with
  | record level message data =>
    rw [if_neg nofun]
    exact h.record level message data
  | push tags =>
    have hsame : ((Call.push tags).perform log).Keeps es :=
      h.congr (captured_pushTags log tags) (truncated_pushTags log tags)
    simpa [Call.made?] using hsame
  | pop =>
    have hsame : (Call.pop.perform log).Keeps es := h.congr rfl rfl
    simpa [Call.made?] using hsame
  | take => exact ⟨rfl, iff_of_false Bool.false_ne_true (Nat.not_lt_zero _)⟩

theorem threshold_perform (log : Log) (c : Call) : (c.perform log).threshold = log.threshold := by
  cases c with
  | record level message data => exact threshold_record log level message data
  | push tags =>
    show (log.pushTags tags).2.threshold = log.threshold
    unfold pushTags
    split <;> rfl
  | pop => rfl
  | take => rfl

theorem tagStack_perform (log : Log) (c : Call) :
    (c.perform log).tagStack = c.stackAfter log.tagStack := by
  cases c with
  | record level message data => exact record_tagStack log level message data
  | push tags =>
    show (log.pushTags tags).2.tagStack = _
    simp only [pushTags, Call.stackAfter, List.isEmpty_iff]
    split <;> rfl
  | pop => rfl
  | take => rfl

theorem fst_pushTags (log : Log) (tags : Fields) :
    (log.pushTags tags).1 = true ↔ keptTags tags ≠ [] := by
  simp only [pushTags, List.isEmpty_iff]
  split <;> simp [*]

/-- After calls a log keeps what they made since the last take, and what it kept before them if
none of them is a take. -/
theorem Keeps.run (h : log.Keeps es) (cs : List Call) : (log.run cs).Keeps
    ((if .take ∈ cs then [] else es) ++ madeSinceTake log.threshold log.tagStack cs) := by
  induction cs generalizing log es with
  | nil =>
    rw [madeSinceTake, List.append_nil, if_neg List.not_mem_nil]
    exact h
  | cons c cs ih =>
    have hrest := ih (h.perform c)
    rw [threshold_perform, tagStack_perform] at hrest
    have hkept : (if .take ∈ cs then [] else
          (if c = .take then [] else es) ++ (c.made? log.threshold log.tagStack).toList) =
        (if .take ∈ c :: cs then [] else es) ++
          (if .take ∈ cs then none else c.made? log.threshold log.tagStack).toList := by
      -- a take that is still to come leaves nothing of what was kept, whatever this call is
      by_cases hlater : Call.take ∈ cs
      · simp [hlater]
      · simp [hlater, eq_comm]
    rw [hkept, List.append_assoc] at hrest
    exact hrest

theorem run_append (log : Log) (cs ds : List Call) : log.run (cs ++ ds) = (log.run cs).run ds :=
  List.foldl_append

/-- Balanced calls leave the tag stack as it was. -/
theorem Balanced.tagStack_run (h : Balanced cs) (log : Log) :
    (log.run cs).tagStack = log.tagStack := by
  induction h generalizing log with
  | nil => rfl
  | record level message data _ ih => exact (ih _).trans (record_tagStack log level message data)
  | take _ ih => exact ih _
  | @refused tags hnone rest _ ih =>
    have hpush : ((Call.push tags).perform log).tagStack = log.tagStack := by
      rw [tagStack_perform, Call.stackAfter, if_pos hnone]
    exact (ih _).trans hpush
  | @dropped tags hsome inner rest _ _ ihinner ihrest =>
    have hpush : ((Call.push tags).perform log).tagStack = keptTags tags :: log.tagStack := by
      rw [tagStack_perform, Call.stackAfter, if_neg hsome]
    have hpop : (((Call.push tags).perform log).run inner).popTags.tagStack = log.tagStack := by
      rw [popTags, ihinner, hpush, List.tail_cons]
    show (((Call.push tags).perform log).run (inner ++ .pop :: rest)).tagStack = log.tagStack
    rw [run_append]
    exact (ihrest _).trans hpop

/-- Whatever calls a new log is told, it has captured the first 1024 of the entries that were made
since the last take, and one notice when there were more. A push that is answered true is undone by
its pop, whatever balanced calls come between. -/
theorem captured_run (threshold : Level) (echo : Bool) (calls : List Call) :
    let made := madeSinceTake threshold [] calls
    let log := (start threshold echo).run calls
    log.captured = made.take 1024 ++ (if 1024 < made.length then [truncationNotice] else []) ∧
    ∀ tags inner, (log.pushTags tags).1 = true → Balanced inner →
      (log.run (.push tags :: (inner ++ [.pop]))).tagStack = log.tagStack ∧
      (log.run (.push tags :: (inner ++ [.pop]))).scopeTags = log.scopeTags := by
  intro made log
  constructor
  · have hkeeps := (keeps_start threshold echo).run calls
    rw [ite_self, List.nil_append] at hkeeps
    exact hkeeps.captured
  · intro tags inner hpush hinner
    have hstack := (Balanced.dropped ((fst_pushTags log tags).1 hpush) hinner .nil).tagStack_run log
    exact ⟨hstack, by rw [scopeTags, hstack, scopeTags]⟩

/-- Calls with a take among them, and with an inner push that gives one of its names anew. -/
def planningCalls : List Call :=
  [.push [("component", .str "compiler"), ("pass", .bool true)], .record .warn "early" none, .take,
    .push [("nested", .obj []), ("component", .str "planner")],
    .record .info "inside" (some (.obj [])), .record .debug "quiet" none, .pop,
    .record .error "outside" (some (.str "no object"))]

/-- Calls on behalf of a node, in which nothing is pushed by a push without tags. -/
def nodeCalls : List Call :=
  [.push [], .record .warn "node" none, .push [("pass", .bool false)], .pop]

theorem balanced_nodeCalls : Balanced nodeCalls :=
  .refused rfl (.record _ _ _ (.dropped (by decide) .nil .nil))

/-- What is captured has the tags in force at its call, and calls on behalf of a node leave those
that were in force before them. -/
theorem captured_planningCalls :
    ((start .info false).run planningCalls).captured =
      [⟨.info, "inside", some [], [("component", .str "planner"), ("pass", .bool true)]⟩,
        ⟨.error, "outside", none, [("component", .str "compiler"), ("pass", .bool true)]⟩] ∧
    (((start .info false).run planningCalls).pushTags [("node", .str "app")]).1 = true ∧
    (((start .info false).run planningCalls).run
        (.push [("node", .str "app")] :: (nodeCalls ++ [.pop]))).scopeTags =
      [("component", .str "compiler"), ("pass", .bool true)] := by
  obtain ⟨hcaptured, hrestored⟩ := captured_run .info false planningCalls
  have hpush : (((start .info false).run planningCalls).pushTags [("node", .str "app")]).1 = true :=
    by decide
  obtain ⟨-, hscope⟩ := hrestored [("node", .str "app")] nodeCalls hpush balanced_nodeCalls
  exact ⟨hcaptured.trans (by decide), hpush, hscope.trans (by decide)⟩

end Log

end DeployPlan
