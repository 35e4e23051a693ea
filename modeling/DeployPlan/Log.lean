import DeployPlan.Failure
import DeployPlan.Json.Basic

/-!
# The log of a pass

An entry at or above the threshold is captured with the tags in force. The first 1024 entries since
the last take are kept; the first one beyond them leaves a notice. A log that echoes also keeps
every entry for the outer program.
-/
namespace DeployPlan

inductive Level where
  | trace
  | debug
  | info
  | warn
  | error
deriving DecidableEq, Repr, Inhabited

namespace Level

def rank : Level → Nat
  | trace => 0
  | debug => 1
  | info => 2
  | warn => 3
  | error => 4

def name : Level → String
  | trace => "trace"
  | debug => "debug"
  | info => "info"
  | warn => "warn"
  | error => "error"

def ofName? : String → Option Level
  | "trace" => some trace
  | "debug" => some debug
  | "info" => some info
  | "warn" => some warn
  | "error" => some error
  | _ => none

/-- The level with a name; any other name is refused. -/
def ofName (name : String) : Except Failure Level :=
  match ofName? name with
  | some l => .ok l
  | none => .error (.plain s!"unsupported log level: {name}")

def least (a b : Level) : Level := if b.rank < a.rank then b else a

end Level

structure LogEntry where
  level : Level
  message : String
  data : Option Fields
  tags : Fields
deriving DecidableEq, Repr

/-- An entry as an object; missing data and empty tags are left out. -/
def LogEntry.json (e : LogEntry) : Json :=
  .obj <|
    [("level", .str e.level.name), ("message", .str e.message)]
      ++ (match e.data with
        | some fields => [("data", .obj fields)]
        | none => [])
      ++ (if e.tags.isEmpty then [] else [("tags", .obj e.tags)])

def isTagValue : Json → Bool
  | .str _ => true
  | .num _ => true
  | .bool _ => true
  | _ => false

/-- A log: its settings, the tags in force and what it has kept. -/
structure Log where
  threshold : Level
  echo : Bool
  /-- Pushed tags, the innermost first. -/
  tagStack : List Fields
  captured : List LogEntry
  truncated : Bool
  /-- Every recorded entry, kept only when the log echoes. -/
  echoed : List LogEntry
deriving DecidableEq, Repr

namespace Log

/-- How many entries are kept between two takes. -/
def captureLimit : Nat := 1024

/-- The entry that stands for those beyond the limit. -/
def truncationNotice : LogEntry where
  level := .warn
  message := "log buffer truncated"
  data := none
  tags := [("component", .str "logging"), ("reason", .str "log-overflow")]

def start (threshold : Level) (echo : Bool) : Log := ⟨threshold, echo, [], [], false, []⟩

/-- The tags in force: those of inner pushes replace those of outer ones. -/
def scopeTags (log : Log) : Fields := log.tagStack.reverse.foldl Entries.putAll []

def keptTags (tags : Fields) : Fields := tags.filter fun t => isTagValue t.2

/-- Pushes the tags that can be kept and tells whether there were any. -/
def pushTags (log : Log) (tags : Fields) : Bool × Log :=
  if (keptTags tags).isEmpty then (false, log)
  else (true, { log with tagStack := keptTags tags :: log.tagStack })

def popTags (log : Log) : Log := { log with tagStack := log.tagStack.tail }

/-- Keeps an entry while there is room, else the notice once. -/
def capture (log : Log) (entry : LogEntry) : Log :=
  if log.captured.length < captureLimit then { log with captured := log.captured ++ [entry] }
  else if log.truncated then log
  else { log with captured := log.captured ++ [truncationNotice], truncated := true }

/-- The entry that a record makes now; data that is no object is dropped. -/
def entry (log : Log) (level : Level) (message : String) (data : Option Json) : LogEntry :=
  ⟨level, message, data.bind Json.asObject?, log.scopeTags⟩

def echoEntry (log : Log) (entry : LogEntry) : Log :=
  if log.echo then { log with echoed := log.echoed ++ [entry] } else log

/-- Records a message, unless its level is below the threshold. -/
def record (log : Log) (level : Level) (message : String) (data : Option Json) : Log :=
  if level.rank < log.threshold.rank then log
  else (log.echoEntry (log.entry level message data)).capture (log.entry level message data)

/-- Takes the captured entries out; counting starts anew. -/
def take (log : Log) : List LogEntry × Log :=
  (log.captured, { log with captured := [], truncated := false })

def messagesAt (level : Level) (entries : List LogEntry) : List String :=
  (entries.filter (·.level = level)).map (·.message)

@[simp] theorem capture_tagStack (log : Log) (e : LogEntry) :
    (log.capture e).tagStack = log.tagStack := by
  unfold capture
  split
  · rfl
  · split <;> rfl

@[simp] theorem echoEntry_tagStack (log : Log) (e : LogEntry) :
    (log.echoEntry e).tagStack = log.tagStack := by
  unfold echoEntry; split <;> rfl

@[simp] theorem record_tagStack (log : Log) (level : Level) (message : String)
    (data : Option Json) : (log.record level message data).tagStack = log.tagStack := by
  unfold record; split <;> simp

/-- A push that was kept is undone by a pop. -/
theorem popTags_pushTags {log log' : Log} {tags : Fields} (h : log.pushTags tags = (true, log')) :
    log'.popTags = log := by
  unfold pushTags at h
  split at h
  · simp at h
  · obtain ⟨_, rfl⟩ := Prod.mk.inj h; rfl

end Log

end DeployPlan
