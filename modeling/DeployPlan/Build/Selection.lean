import DeployPlan.Build.Basic
import DeployPlan.Plan.Text

/-!
# Choosing implementations

A catalog entry for the type of a node comes first, then the two kinds of compute node, then a
native implementation; a node that has none of these is a scripted process.
-/
namespace DeployPlan

/-- The implementation that a factory makes, reported by what the factory stands for. -/
def runFactory (label : String) (f : Factory) (n : NodeTemplate) : Except Failure Implementation :=
  inContext s!"{label} failed for node {n.id}" (f n)

/-- The kind and the implementation of a node on which `children` nodes are placed. -/
def Job.choose (job : Job) (n : NodeTemplate) (children : Nat) :
    Except Failure (ImplementationKind × Implementation) :=
  match job.registry.findCatalog? n.nodeType n.typeVersion with
  | some (name, f) => do return (.registered name, ← runFactory s!"catalog entry {name}" f n)
  | none =>
    if (job.profile n.nodeType).isA computeType then
      .ok (if 1 < children then .coLocation else .applicationRoot, .empty)
    else
      match job.registry.findNative? n.nodeType with
      | some (name, f) => do
        return (.native name, ← runFactory s!"native implementation {name}" f n)
      | none => .ok (.scriptedProcess, .empty)

namespace Build

/-- The node plan that a node starts from: its implementation under its own identity. -/
def select (job : Job) (n : NodeTemplate) (children : Nat) : Build NodePlan := do
  let (kind, implementation) ← ofExcept (job.choose n children)
  Eval.note .info s!"selected implementation for {n.id}"
    [("type", .str n.nodeType), ("kind", .obj kind.fields), ("children", .ofNat children)]
  return { NodePlan.start kind implementation with
    id := n.id
    nodeType := n.nodeType
    displayName := n.effectiveName }

end Build

end DeployPlan
