import DeployPlan.Failure
import DeployPlan.Plan.Basic
import DeployPlan.Topology.Basic

/-!
# Registry of implementations

A registry names the implementations of node types and the categories of behaviour types. Look-up
takes a name itself, else the one name it is bound to; bindings are not followed further.
-/
namespace DeployPlan

abbrev Factory := NodeTemplate → Except Failure Implementation

/-- Implementations and behaviour categories by name, and names bound to others. -/
structure Registry where
  catalog : NameMap Factory
  natives : NameMap Factory
  bindings : NameMap String
  behaviors : NameMap BehaviorCategory

namespace Registry

def empty : Registry := ⟨∅, ∅, ∅, ∅⟩

/-- Registers a catalog entry under a type, or under a type and version joined by a colon. -/
def register (r : Registry) (name : String) (f : Factory) : Registry :=
  { r with catalog := r.catalog.insert name f }

def registerNative (r : Registry) (name : String) (f : Factory) : Registry :=
  { r with natives := r.natives.insert name f }

def bind (r : Registry) (name target : String) : Registry :=
  { r with bindings := r.bindings.insert name target }

def registerBehavior (r : Registry) (behaviorType : String) (c : BehaviorCategory) : Registry :=
  { r with behaviors := r.behaviors.insert behaviorType c }

/-- The entry of a name, else of the name it is bound to, with the name that matched. -/
def matchIn? {α : Type} (table : NameMap α) (bindings : NameMap String) (name : String) :
    Option (String × α) :=
  match table[name]? with
  | some entry => some (name, entry)
  | none =>
    match bindings[name]? with
    | none => none
    | some target => table[target]?.map fun entry => (target, entry)

/-- The catalog entry of a type in a version, else of the type. -/
def findCatalog? (r : Registry) (typeName : String) (version : Option String) :
    Option (String × Factory) :=
  let versioned := match version with
    | none => none
    | some v => if v = "" then none else matchIn? r.catalog r.bindings s!"{typeName}:{v}"
  match versioned with
  | some hit => some hit
  | none => matchIn? r.catalog r.bindings typeName

def findNative? (r : Registry) (typeName : String) : Option (String × Factory) :=
  matchIn? r.natives r.bindings typeName

def category? (r : Registry) (behaviorType : String) : Option BehaviorCategory :=
  (matchIn? r.behaviors r.bindings behaviorType).map (·.2)

end Registry

end DeployPlan
