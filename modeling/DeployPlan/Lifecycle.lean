import DeployPlan.Plan.Basic
import DeployPlan.Topology.Basic

/-!
# Lifecycle operations

Operations of a node or of a relationship belong to command slots by name. The operations of an
instance are laid over those of its type: one that names no script never replaces another.
-/
namespace DeployPlan

/-- The names under which a node's lifecycle operations are declared. -/
def nodeLifecycle : List String :=
  ["tosca.interfaces.node.lifecycle.Standard", "Standard", "standard"]

def relationshipConfigure : List String :=
  ["tosca.interfaces.relationship.Configure", "Configure", "configure"]

def nodeStage? : String → Option CommandSlot
  | "create" => some .install
  | "configure" => some .configure
  | "start" => some .launch
  | "stop" => some .stop
  | _ => none

inductive RelationshipEnd where
  | source
  | target
deriving DecidableEq, Repr

namespace RelationshipEnd

/-- The slot of a relationship's operation in the plan of the node at an end. -/
def stage? : RelationshipEnd → String → Option CommandSlot
  | source, "pre_configure_source" => some .preConfigure
  | source, "post_configure_source" => some .postConfigure
  | target, "pre_configure_target" => some .preConfigure
  | target, "post_configure_target" => some .postConfigure
  | _, _ => none

def across : RelationshipEnd → RelationshipEnd
  | source => target
  | target => source

end RelationshipEnd

/-- Operations with one more laid over: it replaces the one of its name if it names a script, and
comes last when its name is new. -/
def overlayOperation (op : Operation) : List Operation → List Operation
  | [] => [op]
  | base :: rest =>
    if base.name = op.name then (if op.isEffective then op else base) :: rest
    else base :: overlayOperation op rest

/-- The operations of the interface under the first of the aliases that has one. -/
def operationsUnder (aliases : List String) (interfaces : List Interface) : List Operation :=
  (findInterface? aliases interfaces).elim [] (·.operations)

/-- The operations under some names: those of the type, the own ones laid over in turn. -/
def mergedOperations (typeLevel own : List Interface) (aliases : List String) : List Operation :=
  (operationsUnder aliases own).foldl (fun ops op => overlayOperation op ops)
    (operationsUnder aliases typeLevel)

theorem names_overlayOperation (op : Operation) (ops : List Operation) :
    (overlayOperation op ops).map (·.name) =
      if op.name ∈ ops.map (·.name) then ops.map (·.name) else ops.map (·.name) ++ [op.name] := by
  induction ops with
  | nil => rfl
  | cons base rest ih =>
    by_cases h : base.name = op.name
    · by_cases he : op.isEffective = true <;> simp [overlayOperation, h, he]
    · have h' : op.name ≠ base.name := Ne.symm h
      simp only [overlayOperation, h, if_false, List.map_cons, ih, List.mem_cons, h', false_or]
      split <;> simp

end DeployPlan
