import DeployPlan.CommandLine.Options
import DeployPlan.Compiler
import DeployPlan.Plan.Text
import DeployPlan.Settings.Reader
import DeployPlan.Sources

/-!
# Runs of the program

A run reads settings, then type documents, then the topology, and compiles it. The plan is shown,
or written to a file. With a verbose run the log is shown too, warnings and errors apart from the
rest.
-/
namespace DeployPlan.CommandLine

structure Report where
  /-- Zero for success, one for a failure, two for arguments that ask for nothing sensible. -/
  code : Nat
  /-- The lines shown. -/
  output : List String
  /-- The lines shown apart, of warnings and failures. -/
  errors : List String
  files : FileTree

/-- The settings that options name, relative paths taken from the directory of their file. -/
def readSettings (e : Environment) (t : FileTree) (o : Options) : Except Failure Settings := do
  let s ← match o.config with
    | some p => (Settings.load e t p).map (·.anchor (p.parent?.getD ⟨"."⟩))
    | none => .ok (.initial e)
  let s := match o.archives with
    | some root => { s with artifacts := { s.artifacts with repository := root } }
    | none => s
  return if o.verbose then { s with logging := ⟨Level.least s.logging.level .debug, true⟩ } else s

def readTypes (t : FileTree) (paths : List Path) : Except Failure TypeCatalog :=
  paths.foldlM (fun c p =>
    match c.load t p with
    | (.ok (), c) => .ok c
    | (.error f, _) => .error f) .empty

/-- Everything that is read before compiling. -/
def prepare (e : Environment) (t : FileTree) (o : Options) :
    Except Failure (Settings × TypeCatalog × Topology) := do
  let s ← readSettings e t o
  let c ← readTypes t o.types
  let topology ← Topology.load t o.topology
  return (s, c, topology)

/-- Whether an entry is shown apart from the others. -/
def isGrave (entry : LogEntry) : Bool := Level.warn.rank ≤ entry.level.rank

def failed (t : FileTree) (log : List LogEntry) (f : Failure) : Report where
  code := 1
  output := (log.filter fun e => !isGrave e).map (·.json.compact)
  errors := (log.filter isGrave).map (·.json.compact) ++ [s!"Error: {f.fullText}"]
  files := t

def succeeded (t : FileTree) (log : List LogEntry) (shown : List String) : Report where
  code := 0
  output := (log.filter fun e => !isGrave e).map (·.json.compact) ++ shown
  errors := (log.filter isGrave).map (·.json.compact)
  files := t

/-- The report of a plan that is shown, or written where the options say. -/
def deliver (t : FileTree) (o : Options) (log : List LogEntry) (p : Plan) : Report :=
  match o.output with
  | none => succeeded t log [p.json.pretty]
  | some path =>
    match t.writeText path p.json.pretty with
    | .ok t => succeeded t log []
    | .error e =>
      failed t log (.within s!"unable to write spec tree: {path.text}" (.plain e.message))

def runOptions (e : Environment) (t : Store) (o : Options) : Report :=
  match prepare e t.toFileTree o with
  | .error f => failed t.toFileTree [] f
  | .ok (s, c, topology) =>
    match compileOnce s ⟨c.lookup, .empty, t⟩ topology with
    | (.ok p, log) => deliver t.toFileTree o log.echoed p
    | (.error f, log) => failed t.toFileTree log.echoed f

def run (e : Environment) (t : Store) (args : List String) : Report :=
  match readRequest args with
  | .run o => runOptions e t o
  | .help => ⟨0, helpText, [], t.toFileTree⟩
  | .refused => ⟨2, [], [], t.toFileTree⟩

end DeployPlan.CommandLine
