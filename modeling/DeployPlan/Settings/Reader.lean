import DeployPlan.Failure
import DeployPlan.Files.FileTree
import DeployPlan.Settings
import DeployPlan.Toml.Report

/-!
# Reading settings

Settings are a document of three sections, each a table or the list of its values in order. What a
section does not set keeps its first value; what no section knows is passed over. A value of the
wrong kind refuses the whole document.
-/
namespace DeployPlan

def sectionFields? (names : List String) : Json → Option Fields
  | .obj fields => some fields
  | .arr values => some (names.zip values)
  | _ => none

/-- The value that fields give under a name, read by `read`; `first` when they give none. -/
def setting? {α : Type} (read : Json → Option α) (name : String) (first : α) (fields : Fields) :
    Option α :=
  match Entries.get? name fields with
  | some v => read v
  | none => some first

namespace Json

def asBool? : Json → Option Bool
  | bool b => some b
  | _ => none

def asPath? (v : Json) : Option Path := v.asString?.map Path.mk

def asPaths? (v : Json) : Option (List Path) := v.asArray?.bind fun vs => vs.mapM asPath?

/-- Whether a value is an empty table or an empty list. -/
def isHollow : Json → Bool
  | obj [] => true
  | arr [] => true
  | _ => false

/-- The level that a text names, or the one key of a table that holds nothing else. -/
def asLevel? : Json → Option Level
  | str name => Level.ofName? name
  | obj [(name, v)] => if v.isHollow then Level.ofName? name else none
  | _ => none

end Json

def ArtifactSettings.read? (s : ArtifactSettings) (v : Json) : Option ArtifactSettings := do
  let fs ← sectionFields? ["repository", "expanded_folder", "search_paths", "allow_remote"] v
  return {
    repository := ← setting? Json.asPath? "repository" s.repository fs
    expandedFolder := ← setting? Json.asString? "expanded_folder" s.expandedFolder fs
    searchPaths := ← setting? Json.asPaths? "search_paths" s.searchPaths fs
    allowRemote := ← setting? Json.asBool? "allow_remote" s.allowRemote fs }

def LifecycleSettings.read? (s : LifecycleSettings) (v : Json) : Option LifecycleSettings := do
  let fs ← sectionFields? ["noop_command", "resources_root", "temp_root"] v
  return {
    noopCommand := ← setting? Json.asString? "noop_command" s.noopCommand fs
    resourcesRoot := ← setting? Json.asString? "resources_root" s.resourcesRoot fs
    tempRoot := ← setting? Json.asString? "temp_root" s.tempRoot fs }

def LogSettings.read? (s : LogSettings) (v : Json) : Option LogSettings := do
  let fs ← sectionFields? ["level", "echo"] v
  return {
    level := ← setting? Json.asLevel? "level" s.level fs
    echo := ← setting? Json.asBool? "echo" s.echo fs }

namespace Settings

def read? (s : Settings) (fs : Fields) : Option Settings := do
  return {
    artifacts := ← setting? s.artifacts.read? "artifacts" s.artifacts fs
    lifecycle := ← setting? s.lifecycle.read? "lifecycle" s.lifecycle fs
    logging := ← setting? s.logging.read? "logging" s.logging fs }

def ofText (e : Environment) (text : String) : Except Failure Settings :=
  let outcome := match Toml.read text with
    | .ok fields => Except.ok ((initial e).read? fields)
    | .error r => .error (r.report? text)
  match outcome with
  | .ok (some s) => .ok s
  | .ok none => .error (.within "invalid compiler configuration" (.malformed none))
  | .error report => .error (.within "invalid compiler configuration" (.malformed report))

def load (e : Environment) (t : FileTree) (p : Path) : Except Failure Settings :=
  match t.readText p with
  | .error f => .error (.within s!"unable to read config file: {p.text}" (.plain f.message))
  | .ok text => inContext s!"invalid config file: {p.text}" (ofText e text)

end Settings

end DeployPlan
