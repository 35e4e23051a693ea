import DeployPlan.CommandLine.Run

/-!
# What a run can look at

A run looks at the files that its options name and at those that its documents point to: a script
in the contents of an archive, at a path, at the path of a file reference or below a search path,
and the resources of an artifact, all the files below a directory. These are the places whose
contents have to be known before the run.
-/
namespace DeployPlan

namespace Json

mutual

def parts : Json → List Json
  | arr items => arr items :: partsOfItems items
  | obj fields => obj fields :: partsOfFields fields
  | plain => [plain]

def partsOfItems : List Json → List Json
  | [] => []
  | v :: vs => v.parts ++ partsOfItems vs

def partsOfFields : List (String × Json) → List Json
  | [] => []
  | (_, v) :: fields => v.parts ++ partsOfFields fields

end

def texts (v : Json) : List String :=
  v.parts.filterMap fun
    | str text => some text
    | _ => none

/-- The archives that a document names: by a name and a version, or in an artifact. -/
def archives (v : Json) : List Coordinates :=
  v.parts.flatMap fun part =>
    (Topology.readCoordinates? part).toList ++
      ((Topology.readArtifact? part).bind (·.archive?)).toList

def artifactIds (v : Json) : List String :=
  v.parts.flatMap fun part => (Topology.readArtifacts (part.field? "artifacts")).map (·.1)

end Json

namespace ArtifactSettings

/-- The paths where the file of a reference may be, some archives being known. -/
def candidates (s : ArtifactSettings) (archives : List Coordinates) (reference : String) :
    List Path :=
  let inArchives := (Reference.archivePath? reference).toList.flatMap fun p =>
    archives.map fun c => (s.contents c).join ⟨p⟩
  match Reference.classify reference with
  | .path => ⟨reference⟩ :: s.searchPaths.map (·.join ⟨reference⟩) ++ inArchives
  | .classpath => s.searchPaths.map (·.join ⟨Reference.classpathPath reference⟩) ++ inArchives
  | .file (some p) => [⟨p⟩]
  | _ => []

end ArtifactSettings

namespace CommandLine

structure Reach where
  /-- Places looked at alone. -/
  alone : List Path
  /-- Places looked at with everything below them. -/
  whole : List Path

def Options.documents (o : Options) : List Path := o.topology :: o.types

/-- The files that are read before anything else. -/
def Options.sources (o : Options) : List Path := o.config.toList ++ o.documents

def Options.values (o : Options) (t : FileTree) : List Json :=
  o.documents.filterMap fun p =>
    match t.readText p with
    | .ok text => Yaml.read? text
    | .error _ => none

def Options.reach (o : Options) (s : Settings) (t : FileTree) : Reach :=
  let values := o.values t
  let archives := values.flatMap Json.archives
  let references := (values.flatMap Json.texts).map Text.trim
  let ids := values.flatMap Json.artifactIds
  { alone := o.output.toList ++ archives.map s.artifacts.archiveRoot ++
      references.flatMap (s.artifacts.candidates archives)
    whole := archives.flatMap fun c => ids.map fun id => (s.artifacts.contents c).join ⟨id⟩ }

end CommandLine

end DeployPlan
