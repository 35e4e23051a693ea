import DeployPlan.Files.FileTree
import DeployPlan.Reference.Basic
import DeployPlan.Settings
import DeployPlan.Topology.Basic

/-!
# Finding artifacts

A script is read from the archive that its artifact belongs to, else from where its reference
points. A relative reference is looked for on the search paths in turn, then in the working
directory. A URL of another machine is asked of that machine if settings allow it. What other
machines answer is not known beforehand.
-/
namespace DeployPlan

/-- Why a request to another machine brings no text. -/
inductive FetchError where
  /-- There is no answer, or it is no success. -/
  | unanswered (reason : String)
  /-- The text of the answer cannot be read. -/
  | unread (reason : String)
deriving DecidableEq, Repr

/-- Where scripts come from: the files that can be seen, and the texts that other machines send for
URLs. -/
structure Store extends FileTree where
  fetch : String → Except FetchError String

def FileTree.offline (t : FileTree) : Store :=
  ⟨t, fun _ => .error (.unanswered "no connection")⟩

@[simp] theorem FileTree.toFileTree_offline (t : FileTree) : t.offline.toFileTree = t := rfl

instance : Coe FileTree Store := ⟨FileTree.offline⟩

def unreadable (p : Path) (e : FileError) : Failure :=
  .within s!"unable to read file: {p.text}" (.plain e.message)

def FileTree.script (t : FileTree) (p : Path) : Except Failure String :=
  match t.readText p with
  | .ok text => .ok text
  | .error e => .error (unreadable p e)

namespace Reference

/-- The path in a reference of the search-path scheme: what follows the scheme as it is usually
written, without slashes at its start. A scheme written otherwise is not cut off. -/
def classpathPath (reference : String) : String :=
  Text.dropLeading '/' ((Text.afterStart? "classpath:" reference).getD reference)

/-- The path that a reference names inside an archive, if it can name one. -/
def archivePath? (reference : String) : Option String :=
  match classify reference with
  | .path => some reference
  | .classpath => some (classpathPath reference)
  | _ => none

end Reference

namespace ArtifactSettings

def archiveRoot (s : ArtifactSettings) (c : Coordinates) : Path :=
  (s.repository.join ⟨c.name⟩).join ⟨c.version⟩

def contents (s : ArtifactSettings) (c : Coordinates) : Path :=
  (s.archiveRoot c).join ⟨s.expandedFolder⟩

/-- Where something in the contents of an archive is, if the repository has the archive. -/
def expandedPath? (s : ArtifactSettings) (t : FileTree) (c : Coordinates) (relative : String) :
    Option Path :=
  if t.isDirectory (s.archiveRoot c) then some ((s.contents c).join ⟨relative⟩) else none

def searchPath? (s : ArtifactSettings) (t : FileTree) (relative : String) : Option Path :=
  (s.searchPaths.map (·.join ⟨relative⟩)).find? t.isFile

/-- The text of the first file that a relative path names below one of the search paths. -/
def search (s : ArtifactSettings) (t : FileTree) (relative : String) : Except Failure String :=
  match s.searchPath? t relative with
  | some p => t.script p
  | none => .error (.plain s!"{relative} not found on search paths")

/-- The text of a file that a path names: an absolute path is read as it is; else the search paths
come first, and when they yield nothing the working directory. -/
def loadPath (s : ArtifactSettings) (t : FileTree) (reference : String) : Except Failure String :=
  let p : Path := ⟨reference⟩
  if p.isAbsolute then t.script p
  else
    match s.search t reference with
    | .ok text => .ok text
    | .error _ =>
      if t.isFile p then t.script p else .error (.plain s!"{reference} not found")

/-- The text that another machine sends for a URL. It is not asked unless settings allow it. -/
def loadRemote (s : ArtifactSettings) (t : Store) (url : String) : Except Failure String :=
  if s.allowRemote then
    match t.fetch url with
    | .ok text => .ok text
    | .error (.unanswered reason) =>
      .error (.within s!"unable to fetch {url}" (.plain reason))
    | .error (.unread reason) => .error (.plain reason)
  else .error (.plain s!"remote artifact {url} refused: remote loading disabled")

def load (s : ArtifactSettings) (t : Store) (reference : String) : Except Failure String :=
  match Reference.classify reference with
  | .path => s.loadPath t.toFileTree reference
  | .classpath => s.search t.toFileTree (Reference.classpathPath reference)
  | .file (some path) => t.script ⟨path⟩
  | .file none => .error (.plain s!"invalid file url: {reference}")
  | .remote => s.loadRemote t reference
  | .other scheme => .error (.plain s!"unsupported artifact scheme: {scheme}")

/-- The path of an artifact in its archive, `fallback` being the archive of those without one. -/
def archiveFile? (s : ArtifactSettings) (t : FileTree) (a : Artifact)
    (fallback : Option Coordinates) : Option Path := do
  let relative ← Reference.archivePath? (Text.trim a.reference)
  let c ← a.archive?.or fallback
  let p ← s.expandedPath? t c relative
  if t.isFile p then some p else none

/-- The script of an artifact: from its archive, else from where its reference points. -/
def loadScript (s : ArtifactSettings) (t : Store) (a : Artifact)
    (fallback : Option Coordinates) : Except Failure String :=
  match s.archiveFile? t.toFileTree a fallback with
  | some p => t.script p
  | none => s.load t (Text.trim a.reference)

end ArtifactSettings

end DeployPlan
