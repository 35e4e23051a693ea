import DeployPlan.Build.Basic
import DeployPlan.Lifecycle

/-!
# Lifecycle commands

A command is the scripts that contribute to its slot, a line break between each two: the node's own
operation, then the relationships that start from the node, then those that lead to it. A script
starts with one export line per input.
-/
namespace DeployPlan

/-- A script and the slot that it contributes to. -/
structure Contribution where
  slot : CommandSlot
  script : FormatText
deriving DecidableEq, Repr

namespace Contribution

/-- The scripts that contribute to a slot, in order. -/
def scriptsFor (slot : CommandSlot) (cs : List Contribution) : List FormatText :=
  (cs.filter (·.slot = slot)).map (·.script)

/-- The command of a slot, if anything contributes to it. -/
def command? (slot : CommandSlot) (cs : List Contribution) : Option PlanValue :=
  match scriptsFor slot cs with
  | [] => none
  | scripts => PlanValue.ofResolution? (FormatText.joinLines scripts).toResolution

end Contribution

/-- The slots whose command does nothing unless a script contributes. -/
def idleSlots : List CommandSlot := [.launch, .stop, .checkRunning]

namespace NodePlan

/-- A plan with the command that does nothing in the slots that need one. -/
def setIdle (noop : String) (p : NodePlan) : NodePlan :=
  idleSlots.foldl (fun p slot => p.setCommand slot (.ofText noop)) p

def setCommands (cs : List Contribution) (p : NodePlan) : NodePlan :=
  CommandSlot.all.foldl (fun p slot =>
    match Contribution.command? slot cs with
    | some v => p.setCommand slot v
    | none => p) p

end NodePlan

def FormatText.pushExport (script : FormatText) (name : String) (value : Resolution) : FormatText :=
  ((script.pushText s!"export {name}=").pushResolution value).pushText "\n"

namespace Build

def pushExports (job : Job) (scope : Scope) (script : FormatText)
    (inputs : List (String × PropertyValue)) : Eval FormatText :=
  inputs.foldlM (fun script input => do
    return script.pushExport input.1 (← Eval.resolve job.scene scope input.2)) script

/-- The script of an artifact; one that cannot be read is reported for the node. -/
def loadScript (job : Job) (id : String) (a : Artifact) : Build String :=
  match job.script a with
  | .ok body => return body
  | .error f => fail (.compile (.artifactNotFound id a.reference f.text))

/-- The script of an operation under the export lines of its inputs. An operation without a script
contributes none. -/
def operationScript? (job : Job) (id : String) (scope : Scope) (op : Operation) :
    Build (Option FormatText) := do
  match op.implementation with
  | none =>
    Eval.note .debug s!"operation {op.name} has no implementation" [("operation", .str op.name)]
    return none
  | some a =>
    if a.hasReference then
      let body ← loadScript job id a
      let script ← pushExports job scope .empty op.inputs
      return some (script.pushText body)
    else
      Eval.note .warn s!"operation {op.name} has an empty artifact reference; skipping"
        [("node", .str id), ("operation", .str op.name)]
      return none

def contribution (job : Job) (id : String) (scope : Scope) (slot : CommandSlot) (op : Operation) :
    Build (List Contribution) := do
  match ← operationScript? job id scope op with
  | some script => return [⟨slot, script⟩]
  | none => return []

def ownContribution (job : Job) (n : NodeTemplate) (op : Operation) :
    Build (List Contribution) := do
  match nodeStage? op.name with
  | some slot => contribution job n.id (job.scene.topology.nodeScope n.id) slot op
  | none =>
    Eval.note .warn s!"could not translate operation {op.name}" [("operation", .str op.name)]
    return []

/-- What an operation of a relationship from `source` contributes to the node `id` at an end. -/
def edgeContribution (job : Job) (id source : String) (r : Relationship) (atEnd : RelationshipEnd)
    (op : Operation) : Build (List Contribution) := do
  match atEnd.stage? op.name with
  | some slot => contribution job id (job.scene.topology.relationshipScope source r) slot op
  | none =>
    if (atEnd.across.stage? op.name).isNone then
      Eval.note .warn s!"could not translate relationship operation {op.name}"
        [("relationship", .str r.id), ("operation", .str op.name)]
    return []

def gather {α : Type} (f : α → Build (List Contribution)) (sources : List α) :
    Build (List Contribution) := do
  return (← sources.mapM f).flatten

def ownOperations (job : Job) (n : NodeTemplate) : List Operation :=
  mergedOperations (job.profile n.nodeType).interfaces n.interfaces nodeLifecycle

def edgeOperations (job : Job) (r : Relationship) : List Operation :=
  mergedOperations (job.profile r.relationshipType).interfaces r.interfaces relationshipConfigure

/-- The relationships that lead to a node, each with the node that it starts from. -/
def incoming (t : Topology) (id : String) : List (String × Relationship) :=
  t.nodes.flatMap fun source =>
    (source.relationships.filter (·.target = id)).map fun r => (source.id, r)

/-- What a relationship from `source` contributes to the node `id` at an end. -/
def edgeContributions (job : Job) (id : String) (atEnd : RelationshipEnd)
    (edge : String × Relationship) : Build (List Contribution) :=
  gather (edgeContribution job id edge.1 edge.2 atEnd) (edgeOperations job edge.2)

def contributions (job : Job) (n : NodeTemplate) : Build (List Contribution) := do
  let own ← gather (ownContribution job n) (ownOperations job n)
  let outgoing ← gather (edgeContributions job n.id .source)
    (n.relationships.map fun r => (n.id, r))
  let arriving ← gather (edgeContributions job n.id .target) (incoming job.scene.topology n.id)
  return own ++ outgoing ++ arriving

def putCommands (job : Job) (n : NodeTemplate) (p : NodePlan) : Build NodePlan := do
  let cs ← contributions job n
  return (p.setIdle job.settings.lifecycle.noopCommand).setCommands cs

end Build

end DeployPlan
