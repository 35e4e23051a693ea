import DeployPlan.Artifacts
import DeployPlan.Evaluation
import DeployPlan.Registry

/-!
# Building node plans

A build reads a job, changes the pass and may fail; a failure keeps what the log has recorded. The
tags of a build are in force while it runs and at no other time, whether it fails or not.
-/
namespace DeployPlan

structure Job where
  scene : Scene
  registry : Registry
  files : Store
  settings : Settings

def Job.profile (job : Job) (typeName : String) : TypeProfile := job.scene.profile typeName

/-- The script of an artifact. The archive of the topology serves artifacts that name none. -/
def Job.script (job : Job) (a : Artifact) : Except Failure String :=
  job.settings.artifacts.loadScript job.files a job.scene.topology.archive

abbrev Build := ExceptT Failure Eval

namespace Build

def fail {α : Type} (f : Failure) : Build α := throw f

def ofExcept {α : Type} : Except Failure α → Build α
  | .ok a => pure a
  | .error f => fail f

/-- A build with tags in force, dropped when it ends. -/
def tagged {α : Type} (tags : Fields) (build : Build α) : Build α := fun p =>
  match p.log.pushTags tags with
  | (false, log) => build { p with log := log }
  | (true, log) =>
    match build { p with log := log } with
    | (outcome, p') => (outcome, { p' with log := p'.log.popTags })

@[simp] theorem ofExcept_run {α : Type} (r : Except Failure α) (p : Pass) :
    ofExcept r p = (r, p) := by
  cases r <;> rfl

end Build

end DeployPlan
