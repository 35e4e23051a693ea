import DeployPlan.NameMap
import DeployPlan.Property

/-!
# Topologies

A topology declares node templates and groups in order. A node template names what it requires and
the relationships that satisfy it; a group names members and the policies that decorate them.
-/
namespace DeployPlan

/-- The requirement that places a node on another one. -/
def hostRequirement : String := "host"

def hostedOn : String := "tosca.relationships.HostedOn"

def dependsOn : String := "tosca.relationships.DependsOn"

def computeType : String := "tosca.nodes.Compute"

structure Coordinates where
  name : String
  version : String
deriving DecidableEq, Repr

/-- A reference to a file, and the archive it may be in. -/
structure Artifact where
  archiveName : Option String
  archiveVersion : Option String
  reference : String
  artifactType : Option String
  artifactName : Option String
deriving DecidableEq, Repr

namespace Artifact

def ofReference (reference : String) : Artifact := ⟨none, none, reference, none, none⟩

def hasReference (a : Artifact) : Bool := !Text.isBlank a.reference

/-- The archive that an artifact names itself, if its name and version are not empty. -/
def archive? (a : Artifact) : Option Coordinates :=
  match a.archiveName, a.archiveVersion with
  | some name, some version =>
    if name = "" || version = "" then none else some ⟨name, version⟩
  | _, _ => none

end Artifact

/-- An operation: its script and the values that the script is given, in order. -/
structure Operation where
  name : String
  implementation : Option Artifact
  inputs : List (String × PropertyValue)
deriving DecidableEq, Repr

/-- An operation counts over an inherited one only when it names a script. -/
def Operation.isEffective (op : Operation) : Bool :=
  match op.implementation with
  | some a => a.hasReference
  | none => false

structure Interface where
  name : String
  operations : List Operation
deriving DecidableEq, Repr

/-- The interface under the first of the aliases that has one. -/
def findInterface? (aliases : List String) (interfaces : List Interface) : Option Interface :=
  aliases.findSome? fun name => interfaces.find? (·.name = name)

structure Relationship where
  id : String
  requirement : String
  target : String
  relationshipType : String
  properties : NameMap PropertyValue
  interfaces : List Interface
deriving DecidableEq

structure NodeTemplate where
  id : String
  nodeType : String
  typeVersion : Option String
  name : Option String
  properties : NameMap PropertyValue
  requirements : List String
  relationships : List Relationship
  interfaces : List Interface
  artifacts : List (String × Artifact)
deriving DecidableEq

namespace NodeTemplate

/-- The declared name, or the id when that is blank. -/
def effectiveName (n : NodeTemplate) : String :=
  match n.name with
  | some name => if Text.isBlank name then n.id else name
  | none => n.id

/-- The first relationship that satisfies a requirement. -/
def relationshipFor? (n : NodeTemplate) (requirement : String) : Option Relationship :=
  n.relationships.find? (·.requirement = requirement)

def requiresHost (n : NodeTemplate) : Bool := n.requirements.contains hostRequirement

/-- The target of the relationship that satisfies a declared host requirement. -/
def hostTarget? (n : NodeTemplate) : Option String :=
  if n.requiresHost then (n.relationshipFor? hostRequirement).map (·.target) else none

/-- The host that a scalar property of that name gives, an older form. -/
def hostProperty? (n : NodeTemplate) : Option String :=
  n.properties[hostRequirement]?.bind PropertyValue.scalar?

/-- The node that a node is placed on: by its host requirement, else by its host property. -/
def hostParent? (n : NodeTemplate) : Option String := n.hostTarget?.or n.hostProperty?

end NodeTemplate

/-- What a policy does to the members of its group. -/
inductive PolicyKind where
  | location
  | behavior
deriving DecidableEq, Repr

structure Policy where
  name : String
  kind : PolicyKind
  behaviorType : Option String
  data : Fields
deriving DecidableEq, Repr

structure Group where
  name : String
  members : List String
  policies : List Policy
deriving DecidableEq, Repr

structure Topology where
  name : String
  nodes : List NodeTemplate
  groups : List Group
  dependencies : List Coordinates
  archive : Option Coordinates
deriving DecidableEq

namespace Topology

def ids (t : Topology) : List String := t.nodes.map (·.id)

/-- The node template with an id, the last one counting. -/
def node? (t : Topology) (id : String) : Option NodeTemplate := t.nodes.reverse.find? (·.id = id)

def has (t : Topology) (id : String) : Bool := (t.node? id).isSome

/-- The node template with an id, else the first one of that effective name. -/
def nodeByIdOrName? (t : Topology) (key : String) : Option NodeTemplate :=
  (t.node? key).or (t.nodes.find? (·.effectiveName = key))

/-- Each placed node with the id that its declaration places it on. -/
def placements (t : Topology) : List (String × String) :=
  t.nodes.filterMap fun n => n.hostParent?.map (n.id, ·)

/-- The id that a node is placed on, the last of its placements counting. -/
def parent? (t : Topology) (id : String) : Option String := t.placements.reverse.lookup id

theorem id_of_node? {t : Topology} {id : String} {n : NodeTemplate} (h : t.node? id = some n) :
    n.id = id := by
  have := List.find?_some h
  simpa using this

theorem mem_of_node? {t : Topology} {id : String} {n : NodeTemplate} (h : t.node? id = some n) :
    n ∈ t.nodes := List.mem_reverse.1 (List.mem_of_find?_eq_some h)

theorem mem_placements_iff {t : Topology} {id parent : String} :
    (id, parent) ∈ t.placements ↔ ∃ n ∈ t.nodes, n.id = id ∧ n.hostParent? = some parent := by
  simp only [placements, List.mem_filterMap, Option.map_eq_some_iff, Prod.mk.injEq]
  exact exists_congr fun n => and_congr_right fun _ =>
    ⟨fun ⟨_, hparent, hid, heq⟩ => ⟨hid, heq ▸ hparent⟩, fun h => ⟨_, h.2, h.1, rfl⟩⟩

theorem has_iff_mem_ids (t : Topology) (id : String) : t.has id = true ↔ id ∈ t.ids := by
  simp [has, node?, ids, List.find?_isSome]

end Topology

end DeployPlan
