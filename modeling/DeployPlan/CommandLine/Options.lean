import DeployPlan.Files.Path
import DeployPlan.Text.Blank

/-!
# Options of the command line

Options have long and short names. A value stands in the next argument or is joined to the name;
options without values may share one argument with others. Only type documents may be named several
times.
-/
namespace DeployPlan.CommandLine

inductive Flag where
  | topology
  | types
  | config
  | archives
  | output
  | verbose
  | help
deriving DecidableEq, Repr

namespace Flag

def ofLong? : String → Option Flag
  | "topology" => some topology
  | "types" => some types
  | "config" => some config
  | "archives" => some archives
  | "output" => some output
  | "verbose" => some verbose
  | "help" => some help
  | _ => none

def ofShort? : Char → Option Flag
  | 't' => some topology
  | 'T' => some types
  | 'c' => some config
  | 'o' => some output
  | 'v' => some verbose
  | 'h' => some help
  | _ => none

def takesValue : Flag → Bool
  | verbose => false
  | help => false
  | _ => true

end Flag

structure Given where
  topology : Option Path
  types : List Path
  config : Option Path
  archives : Option Path
  output : Option Path
  verbose : Bool
deriving DecidableEq, Repr

structure Options where
  topology : Path
  types : List Path
  config : Option Path
  archives : Option Path
  output : Option Path
  verbose : Bool
deriving DecidableEq, Repr

inductive Request where
  | run (options : Options)
  | help
  | refused
deriving DecidableEq, Repr

namespace Given

def none : Given := ⟨.none, [], .none, .none, .none, false⟩

def once? (old : Option Path) (new : Path) : Option (Option Path) :=
  if old.isSome then .none else some (some new)

/-- The options with the value of a flag, which is not empty and, but for type documents, not given
before. -/
def setValue? (g : Given) (f : Flag) (value : String) : Option Given :=
  let p : Path := ⟨value⟩
  if value = "" then .none
  else
    match f with
    | .topology => (once? g.topology p).map fun v => { g with topology := v }
    | .types => some { g with types := g.types ++ [p] }
    | .config => (once? g.config p).map fun v => { g with config := v }
    | .archives => (once? g.archives p).map fun v => { g with archives := v }
    | .output => (once? g.output p).map fun v => { g with output := v }
    | _ => .none

/-- The options with the flag that makes a run tell more, not given before. -/
def setVerbose? (g : Given) : Option Given :=
  if g.verbose then .none else some { g with verbose := true }

/-- The request of the options when there are no more arguments. A topology has to be named. -/
def request (g : Given) : Request :=
  match g.topology with
  | some t => .run ⟨t, g.types, g.config, g.archives, g.output, g.verbose⟩
  | .none => .refused

end Given

inductive Step where
  | go (given : Given)
  /-- The next argument is the value of a flag. -/
  | valueOf (flag : Flag) (given : Given)
  | help
  | refused

def Step.ofGiven? : Option Given → Step
  | some g => go g
  | none => refused

/-- Whether an argument names options, so that it cannot be a value. -/
def namesOptions (arg : String) : Bool := Text.hasStart "-" arg && arg ≠ "-"

/-- Reads the short names that share an argument. What follows the name of a flag with a value is
that value, an equals sign between them dropped. -/
def readShort (g : Given) : List Char → Step
  | [] => .go g
  | c :: cs =>
    match Flag.ofShort? c with
    | none => .refused
    | some .help => .help
    | some .verbose =>
      match g.setVerbose? with
      | some g => readShort g cs
      | none => .refused
    | some f =>
      match cs with
      | [] => .valueOf f g
      | '=' :: value => .ofGiven? (g.setValue? f (String.ofList value))
      | value => .ofGiven? (g.setValue? f (String.ofList value))

/-- Reads a long name, and the value after an equals sign. -/
def readLong (g : Given) (cs : List Char) : Step :=
  match Flag.ofLong? (String.ofList (cs.takeWhile (· ≠ '='))), cs.dropWhile (· ≠ '=') with
  | none, _ => .refused
  | some f, [] =>
    match f with
    | .help => .help
    | .verbose => .ofGiven? g.setVerbose?
    | f => .valueOf f g
  | some f, _ :: value =>
    if f.takesValue then .ofGiven? (g.setValue? f (String.ofList value)) else .refused

def readArgument (g : Given) (arg : String) : Step :=
  match arg.toList with
  | '-' :: '-' :: name => readLong g name
  | '-' :: c :: cs => readShort g (c :: cs)
  | _ => .refused

/-- Reads arguments in turn. After two dashes no option follows, and nothing else is asked for. -/
def readArguments (g : Given) : List String → Request
  | [] => g.request
  | arg :: args =>
    if arg = "--" then (if args.isEmpty then g.request else .refused)
    else
      match readArgument g arg, args with
      | .go g, args => readArguments g args
      | .help, _ => .help
      | .refused, _ => .refused
      | .valueOf _ _, [] => .refused
      | .valueOf f g, value :: args =>
        if namesOptions value then .refused
        else
          match g.setValue? f value with
          | some g => readArguments g args
          | none => .refused

def readRequest (args : List String) : Request := readArguments .none args

def helpText : List String :=
  ["Compile a TOSCA topology into a deployment spec tree",
    "",
    "Usage: tosca-compile [OPTIONS] --topology <TOPOLOGY>",
    "",
    "Options:",
    "  -t, --topology <TOPOLOGY>  Topology document to compile (YAML/JSON)",
    "  -T, --types <TYPES>        Type documents to index (repeatable)",
    "  -c, --config <CONFIG>      Compiler configuration (TOML)",
    "      --archives <ARCHIVES>  Override the archive repository root",
    "  -o, --output <OUTPUT>      Write the spec tree here instead of stdout",
    "  -v, --verbose              Echo compiler logs to stdout/stderr",
    "  -h, --help                 Print help"]

end DeployPlan.CommandLine
