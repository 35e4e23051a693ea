import DeployPlan.Failure
import DeployPlan.Files.Path

/-!
# File trees

What a compilation can see of files is a value: the tree below the root, and the names that lead
from there to the working directory. A path is followed name by name; a device reads as the empty
text and is neither a file nor a directory.
-/
namespace DeployPlan

inductive FileNode where
  | file (content : ByteArray)
  | directory (children : List (String × FileNode))
  | device

inductive FileError where
  | missing
  | notDirectory
  | isDirectory
  | nameTooLong
  | nulInName
  | notText
deriving DecidableEq, Repr

def FileError.message : FileError → String
  | missing => "No such file or directory (os error 2)"
  | notDirectory => "Not a directory (os error 20)"
  | isDirectory => "Is a directory (os error 21)"
  | nameTooLong => "File name too long (os error 36)"
  | nulInName => "file name contained an unexpected NUL byte"
  | notText => "stream did not contain valid UTF-8"

namespace FileNode

def child? (name : String) : List (String × FileNode) → Option FileNode
  | [] => none
  | (key, n) :: rest => if key = name then some n else child? name rest

def setChild (name : String) (n : FileNode) : List (String × FileNode) → List (String × FileNode)
  | [] => [(name, n)]
  | (key, old) :: rest =>
    if key = name then (key, n) :: rest else (key, old) :: setChild name n rest

/-- The children of a directory, and none of anything else. -/
def childrenOf : FileNode → List (String × FileNode)
  | directory children => children
  | _ => []

def isFile : FileNode → Bool
  | file _ => true
  | _ => false

def isDirectory : FileNode → Bool
  | directory _ => true
  | _ => false

/-- A tree with `n` at the end of the names, directories made on the way. -/
def place (n : FileNode) : List String → FileNode → FileNode
  | [], _ => n
  | name :: names, tree =>
    directory (setChild name
      (place n names ((child? name tree.childrenOf).getD (directory []))) tree.childrenOf)

/-- A tree without what is at the end of the names. -/
def erase : List String → FileNode → FileNode
  | [], tree => tree
  | [name], tree =>
    match tree with
    | directory children => directory (children.filter (·.1 ≠ name))
    | other => other
  | name :: names, tree =>
    match child? name tree.childrenOf with
    | some n => directory (setChild name (erase names n) tree.childrenOf)
    | none => tree

mutual

/-- The files below a node as lists of names, those of a directory sorted by name. A directory is
looked into if `opens` holds of the names that lead to it; one that is not stands with the files. -/
def files (opens : List String → Bool) : FileNode → List (List String)
  | file _ => [[]]
  | device => [[]]
  | directory children =>
    if opens [] then
      ((filesOf opens children).mergeSort fun a b => a.1 ≤ b.1).flatMap fun (name, below) =>
        below.map (name :: ·)
    else [[]]

def filesOf (opens : List String → Bool) :
    List (String × FileNode) → List (String × List (List String))
  | [] => []
  | (name, n) :: rest =>
    (name, files (fun names => opens (name :: names)) n) :: filesOf opens rest

end

end FileNode

/-- Where a walk through a tree stands: the nodes passed, the innermost first, with the names that
led to them, and the node reached. -/
structure Walk where
  passed : List (String × FileNode)
  reached : FileNode

def FileNode.emptyDirectory : FileNode := .directory []

def nameLimit : Nat := 255

def pathLimit : Nat := 4095

def Path.isShort (p : Path) : Bool := p.text.utf8ByteSize ≤ pathLimit

namespace Walk

def start (n : FileNode) : Walk := ⟨[], n⟩

/-- Follows one name. Above the start there is the start. -/
def step (w : Walk) (name : String) : Except FileError Walk :=
  match w.reached with
  | .directory children =>
    if name = "." then .ok w
    else if name = ".." then
      match w.passed with
      | (_, above) :: passed => .ok ⟨passed, above⟩
      | [] => .ok w
    else if nameLimit < name.utf8ByteSize then .error .nameTooLong
    else
      match FileNode.child? name children with
      | some n => .ok ⟨(name, w.reached) :: w.passed, n⟩
      | none => .error .missing
  | _ => .error .notDirectory

def follow (w : Walk) : List String → Except FileError Walk
  | [] => .ok w
  | name :: names =>
    match w.step name with
    | .ok w' => w'.follow names
    | .error e => .error e

/-- The names from the start to where a walk stands. -/
def trail (w : Walk) : List String := (w.passed.map (·.1)).reverse

end Walk

/-- The files that a compilation can see. -/
structure FileTree where
  root : FileNode
  /-- The names from the root to the working directory. -/
  place : List String

namespace FileTree

/-- A null device and an empty working directory at a place. -/
def emptyAt (place : List String) : FileTree :=
  let devices : FileNode := .directory [("null", .device)]
  ⟨FileNode.place .emptyDirectory place (.directory [("dev", devices)]), place⟩

def empty : FileTree := emptyAt ["tmp", "work"]

/-- Follows names from the root or from the working directory. -/
def follow (t : FileTree) (absolute : Bool) (names : List String) : Except FileError Walk :=
  (Walk.start t.root).follow (if absolute then names else t.place ++ names)

/-- Follows the names of a path, or those of them that are given. -/
def followIn (t : FileTree) (p : Path) (names : List String) : Except FileError Walk :=
  if p.text.toList.contains '\x00' then .error .nulInName
  else if p.text = "" then .error .missing
  else if !p.isShort then .error .nameTooLong
  else t.follow p.isAbsolute names

def walk (t : FileTree) (p : Path) : Except FileError Walk := t.followIn p p.steps

/-- Where the directory of a path is, the last name being left out. -/
def walkAbove (t : FileTree) (p : Path) : Except FileError Walk :=
  t.followIn p (p.names.dropLast ++ ["."])

def node? (t : FileTree) (p : Path) : Option FileNode :=
  match t.walk p with
  | .ok w => some w.reached
  | .error _ => none

def isFile (t : FileTree) (p : Path) : Bool := (t.node? p).any FileNode.isFile

def isDirectory (t : FileTree) (p : Path) : Bool := (t.node? p).any FileNode.isDirectory

def readText (t : FileTree) (p : Path) : Except FileError String :=
  match t.walk p with
  | .error e => .error e
  | .ok w =>
    match w.reached with
    | .directory _ => .error .isDirectory
    | .device => .ok ""
    | .file content =>
      match String.fromUTF8? content with
      | some text => .ok text
      | none => .error .notText

/-- The paths of all files below a directory, each directory's entries in name order. A directory
below it whose path is too long is not told from a file. -/
def filesBelow (t : FileTree) (p : Path) : List Path :=
  match t.node? p with
  | some n => (n.files fun names => (p.joinAll names).isShort).map p.joinAll
  | none => []

/-- The files below a path, which has to lead to a directory. -/
def listing (t : FileTree) (p : Path) : Except FileError (List Path) :=
  match t.walk p with
  | .error e => .error e
  | .ok w => if w.reached.isDirectory then .ok (t.filesBelow p) else .error .notDirectory

/-- The names from the root to what a path names when it is written without detours. -/
def trail (t : FileTree) (p : Path) : List String :=
  (if p.isAbsolute then [] else t.place) ++ p.steps.filter (· ≠ ".")

def put (t : FileTree) (p : Path) (n : FileNode) : FileTree :=
  { t with root := FileNode.place n (t.trail p) t.root }

def remove (t : FileTree) (p : Path) : FileTree := { t with root := t.root.erase (t.trail p) }

/-- A tree with `content` as the file that a walk and a name lead to. -/
def store (t : FileTree) (w : Walk) (name : String) (content : ByteArray) : FileTree :=
  { t with root := FileNode.place (.file content) (w.trail ++ [name]) t.root }

/-- Writes a text to a file, made anew unless it is there. Its directory has to be there. A path
that ends in a separator asks for a directory, whatever there is. -/
def writeText (t : FileTree) (p : Path) (text : String) : Except FileError FileTree :=
  match t.walkAbove p, p.names.getLast? with
  | .error e, _ => .error e
  | .ok _, none => .error .isDirectory
  | .ok w, some name =>
    if p.endsInSeparator then .error .isDirectory
    else
      match w.step name with
      | .ok ⟨_, .directory _⟩ => .error .isDirectory
      | .ok ⟨_, .device⟩ => .ok t
      | .ok ⟨_, .file _⟩ => .ok (t.store w name text.toUTF8)
      | .error .missing => .ok (t.store w name text.toUTF8)
      | .error e => .error e

end FileTree

end DeployPlan
