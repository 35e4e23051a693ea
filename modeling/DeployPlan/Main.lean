import DeployPlan.CommandLine.Reach

/-!
# The program

The part of the file system that a run can look at is read first; the run itself works on that
reading, without a connection to other machines. Then its lines are shown, its file is written and
its code is the program's code.
-/
namespace DeployPlan.CommandLine

def absolute (names : List String) : Path := ⟨"/" ++ "/".intercalate names⟩

def isDirectoryOnDisk (p : Path) : IO Bool := do
  ((← IO.currentDir) / p.text).isDir

def entryNames (p : Path) : IO (List String) := do
  try
    return (← ((← IO.currentDir) / p.text).readDir).toList.map (·.fileName)
  catch _ => return []

def takeFile (t : FileTree) (p : Path) : IO FileTree := do
  try
    return t.put p (.file (← IO.FS.readBinFile p.text))
  catch _ => return t

/-- Takes a directory into a tree, what the tree has of it being kept. -/
def takeDirectory (t : FileTree) (p : Path) : FileTree :=
  if t.isDirectory p then t else t.put p .emptyDirectory

/-- Takes everything that is met on the way along names, the file at their end included. -/
def takeAlong (t : FileTree) (reached : List String) : List String → IO FileTree
  | [] => return t
  | "." :: names => takeAlong t reached names
  | ".." :: names => takeAlong t reached.dropLast names
  | name :: names => do
    let p := absolute (reached ++ [name])
    if ← isDirectoryOnDisk p then takeAlong (takeDirectory t p) (reached ++ [name]) names
    else takeFile t p

def take (t : FileTree) (p : Path) : IO FileTree :=
  takeAlong t (if p.isAbsolute then [] else t.place) p.steps

/-- Takes everything below a path, to a depth that no path on a disk exceeds. -/
def takeBelow (depth : Nat) (t : FileTree) (p : Path) : IO FileTree := do
  let t ← take t p
  match depth, ← isDirectoryOnDisk p with
  | depth + 1, true =>
    (← entryNames p).foldlM (fun t name => takeBelow depth t (p.join ⟨name⟩)) t
  | _, _ => return t

/-- The reading of the file system that a run with options works on. -/
def takeReach (e : Environment) (o : Options) : IO FileTree := do
  let here ← IO.currentDir
  let t ← o.sources.foldlM take (.emptyAt (Path.steps ⟨here.toString⟩))
  match readSettings e t o with
  | .error _ => return t
  | .ok s =>
    let reach := o.reach s t
    let t ← reach.alone.foldlM take t
    reach.whole.foldlM (takeBelow pathLimit) t

/-- Writes the file that a report leaves at the path of the output. -/
def writeOutput (o : Options) (r : Report) : IO Unit := do
  match r.code, o.output with
  | 0, some p =>
    match r.files.readText p with
    | .ok text => IO.FS.writeFile p.text text
    | .error _ => return
  | _, _ => return

def tell (r : Report) : IO Unit := do
  r.output.forM IO.println
  r.errors.forM IO.eprintln

end DeployPlan.CommandLine

open DeployPlan in
def main (args : List String) : IO UInt32 := do
  let env : Environment := ⟨← IO.getEnv "TOSCA_ARCHIVE_ROOT", ← IO.getEnv "HOME"⟩
  let t ← match CommandLine.readRequest args with
    | .run o => CommandLine.takeReach env o
    | _ => pure .empty
  let report := CommandLine.run env t.offline args
  CommandLine.tell report
  match CommandLine.readRequest args with
  | .run o => CommandLine.writeOutput o report
  | _ => pure ()
  return report.code.toUInt32
