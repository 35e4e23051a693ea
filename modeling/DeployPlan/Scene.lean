import DeployPlan.Log
import DeployPlan.Scope
import DeployPlan.TypeCatalog

/-!
# Scenes

A scene is a topology with the profiles of all the types it uses, looked up before anything is
evaluated.
-/
namespace DeployPlan

structure Scene where
  topology : Topology
  profiles : List (String × TypeProfile)
deriving DecidableEq

namespace Scene

def usedTypes (t : Topology) : List String :=
  t.nodes.flatMap fun n => n.nodeType :: n.relationships.map (·.relationshipType)

def noteType (name : String) (p : TypeProfile) (log : Log) : Log :=
  if p.isUndefined then
    log.record .debug "type has no indexed definition" (some (.obj [("type", .str name)]))
  else log

/-- Looks up types in turn, each once, and notes those without definition. -/
def gather (lookup : TypeLookup) (dependencies : List Coordinates) :
    List String → List (String × TypeProfile) → Log →
      Except Failure (List (String × TypeProfile)) × Log
  | [], known, log => (.ok known, log)
  | name :: names, known, log =>
    if Entries.has name known then gather lookup dependencies names known log
    else
      match lookup name dependencies with
      | .error f => (.error f, log)
      | .ok p => gather lookup dependencies names (known ++ [(name, p)]) (noteType name p log)

def build (lookup : TypeLookup) (t : Topology) (log : Log) : Except Failure Scene × Log :=
  match gather lookup t.dependencies (usedTypes t) [] log with
  | (.error f, log) => (.error f, log)
  | (.ok profiles, log) => (.ok ⟨t, profiles⟩, log)

/-- The profile of a type; a type that was not looked up has a bare one. -/
def profile (s : Scene) (typeName : String) : TypeProfile :=
  (Entries.get? typeName s.profiles).getD (.bare typeName)

/-- The value that a node gives a property, else the default of its type. -/
def rawProperty? (s : Scene) (id property : String) : Option PropertyValue :=
  match s.topology.node? id with
  | none => none
  | some n => n.properties[property]?.or (s.profile n.nodeType).properties[property]?

/-- The properties that a node has from its type or of its own, in name order. -/
def propertyNames (s : Scene) (id : String) : List String :=
  match s.topology.node? id with
  | none => []
  | some n => (NameMap.overlay (s.profile n.nodeType).properties n.properties).keys

/-- The node that an entity key denotes: a bound alias its id, an unbound keyword nothing, any other
key an id or else an effective name. -/
def entity? (s : Scene) (scope : Scope) (key : String) : Option NodeTemplate :=
  match scope.get? key with
  | some id => s.topology.node? id
  | none => if isKeyword key then none else s.topology.nodeByIdOrName? key

end Scene

end DeployPlan
