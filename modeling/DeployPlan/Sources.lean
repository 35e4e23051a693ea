import DeployPlan.Files.FileTree
import DeployPlan.TypeCatalog
import DeployPlan.Yaml.Document

/-!
# Documents from files

Topologies and type documents are read from YAML texts and files. Each failure says which file it
is about; that a text is no YAML at all has no wording of its own.
-/
namespace DeployPlan

/-- The text of a file, or a failure reported with what the file was wanted for. -/
def readSource (purpose : String) (t : FileTree) (p : Path) : Except Failure String :=
  match t.readText p with
  | .ok text => .ok text
  | .error e => .error (.within s!"unable to read {purpose}: {p.text}" (.plain e.message))

/-- The value of a YAML text; one that is malformed is reported in a context. -/
def readYaml (context text : String) : Except Failure Json :=
  match Yaml.read? text with
  | some doc => .ok doc
  | none => .error (.within context (.malformed none))

namespace Topology

def ofText (text : String) : Except Failure Topology := do
  read (← readYaml "invalid YAML topology" text)

def load (t : FileTree) (p : Path) : Except Failure Topology := do
  let text ← readSource "topology file" t p
  inContext s!"invalid topology in {p.text}" (ofText text)

end Topology

namespace TypeCatalog

def ofText (text : String) : Except Failure TypeCatalog := do
  let doc ← readYaml "invalid YAML type document" text
  match empty.merge doc with
  | (.ok (), c) => .ok c
  | (.error f, _) => .error f

def load (c : TypeCatalog) (t : FileTree) (p : Path) : Except Failure Unit × TypeCatalog :=
  let doc := do
    let text ← readSource "type document" t p
    readYaml s!"invalid YAML type document: {p.text}" text
  match doc with
  | .error f => (.error f, c)
  | .ok doc =>
    let (outcome, c) := c.merge doc
    (inContext s!"invalid type document: {p.text}" outcome, c)

end TypeCatalog

end DeployPlan
