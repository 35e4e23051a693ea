import DeployPlan.Build.Basic

/-!
# Staging files

The file artifacts of a node's type are laid on the target before the node is installed: directories
are made, each file is copied to a temporary place and then moved to its own.
-/
namespace DeployPlan

/-- The type of artifacts that are laid on the target. -/
def fileArtifact : String := "tosca.artifacts.File"

/-- A name below a root on the target, one slash between them. -/
def remotePath (root name : String) : String :=
  Text.dropTrailing '/' root ++ "/" ++ Text.dropLeading '/' name

namespace RuntimeEnvironment

/-- An environment that makes the two directories of an artifact and names the lasting one. -/
def addRoots (e : RuntimeEnvironment) (name lasting temporary : String) : RuntimeEnvironment :=
  { e with
    preInstallCommands := e.preInstallCommands ++ [s!"mkdir -p {lasting}", s!"mkdir -p {temporary}"]
    shellEnv := e.shellEnv.insert name lasting }

/-- An environment that copies a file to the temporary directory and moves it to the lasting one. -/
def addFile (e : RuntimeEnvironment) (lasting temporary : String) (file : Path) :
    RuntimeEnvironment :=
  match file.fileName? with
  | none => e
  | some name =>
    { e with
      preInstallFiles := e.preInstallFiles.insert file.text (remotePath temporary name)
      preInstallCommands := e.preInstallCommands ++
        [s!"mv {remotePath temporary name} {remotePath lasting name}"] }

end RuntimeEnvironment

namespace Job

def resources? (job : Job) (id : String) (a : Artifact) : Option Path := do
  let c ← a.archive?.or job.scene.topology.archive
  let p ← job.settings.artifacts.expandedPath? job.files.toFileTree c id
  if job.files.isDirectory p then some p else none

end Job

namespace Build

def stageNamed (job : Job) (e : RuntimeEnvironment) (id name : String) (a : Artifact) :
    Eval RuntimeEnvironment := do
  let lasting := remotePath job.settings.lifecycle.resourcesRoot name
  let temporary := remotePath job.settings.lifecycle.tempRoot name
  let e := e.addRoots name lasting temporary
  match job.resources? id a with
  | some resources =>
    match job.files.listing resources with
    | .ok files => return files.foldl (fun e file => e.addFile lasting temporary file) e
    | .error reason =>
      Eval.note .warn "cannot list artifact resources"
        [("artifact", .str id), ("error", .str reason.message)]
      return e
  | none =>
    Eval.note .warn s!"archive content for artifact {id} not found"
      [("artifact", .str id), ("name", .str name)]
    return e

/-- An environment with one artifact staged, if it is a file artifact with a name. -/
def stageArtifact (job : Job) (e : RuntimeEnvironment) (artifact : String × Artifact) :
    Eval RuntimeEnvironment := do
  let (id, a) := artifact
  if a.artifactType = some fileArtifact then
    match a.artifactName with
    | some name =>
      if Text.isBlank name then unnamed e id else stageNamed job e id name a
    | none => unnamed e id
  else
    Eval.note .info "skipping unsupported artifact type"
      [("artifact", .str id), ("type", .ofOption (a.artifactType.map .str))]
    return e
where
  /-- The note on an artifact without a name to be staged under. -/
  unnamed (e : RuntimeEnvironment) (id : String) : Eval RuntimeEnvironment := do
    Eval.note .warn s!"skipping artifact {id}: no destination name" [("artifact", .str id)]
    return e

def putRuntime (job : Job) (n : NodeTemplate) (p : NodePlan) : Eval NodePlan := do
  let e ← (job.profile n.nodeType).artifacts.foldlM (stageArtifact job) p.runtime
  return { p with runtime := e }

end Build

end DeployPlan
