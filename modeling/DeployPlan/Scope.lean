import DeployPlan.Topology.Basic

/-!
# Scopes of evaluation

Four keywords name nodes relative to where an expression stands: the node itself, the topmost node
it is hosted on, and the two ends of a relationship. A scope binds the keywords that apply.
-/
namespace DeployPlan

/-- The node that an expression belongs to. -/
def selfKeyword : String := "SELF"

/-- The topmost node that the expression's node is hosted on. -/
def hostKeyword : String := "HOST"

/-- The node that a relationship starts from. -/
def sourceKeyword : String := "SOURCE"

/-- The node that a relationship leads to. -/
def targetKeyword : String := "TARGET"

def isKeyword (key : String) : Bool :=
  key = selfKeyword || key = hostKeyword || key = sourceKeyword || key = targetKeyword

structure Scope where
  aliases : NameMap String
deriving DecidableEq

namespace Scope

def empty : Scope := ⟨∅⟩

/-- Binds an alias to an id that is not blank; a blank one changes nothing. -/
def bind (s : Scope) (name id : String) : Scope :=
  if Text.isBlank id then s else ⟨s.aliases.insert name id⟩

def get? (s : Scope) (name : String) : Option String := s.aliases[name]?

def isEmpty (s : Scope) : Bool := s.aliases.isEmpty

theorem get?_bind (s : Scope) (name id other : String) :
    (s.bind name id).get? other =
      if name = other ∧ Text.isBlank id = false then some id else s.get? other := by
  unfold bind get?
  by_cases hb : Text.isBlank id = true
  · simp [hb]
  · by_cases hn : name = other <;> simp [hb, hn, Std.ExtTreeMap.getElem?_insert]

end Scope

namespace Topology

/-- Follows parents from `current` up to a node without one; `visited` ends the walk in a cycle. -/
def climb (t : Topology) : Nat → List String → String → Option String
  | 0, _, _ => none
  | n + 1, visited, current =>
    match t.parent? current with
    | none => some current
    | some parent =>
      if t.has parent && !visited.contains parent then t.climb n (parent :: visited) parent
      else none

/-- The topmost node that a node is hosted on, itself when it has no parent. There is none when a
parent is missing or the walk comes back to a node it passed. -/
def topmost? (t : Topology) (id : String) : Option String :=
  if t.has id then t.climb t.nodes.length [id] id else none

def nodeScope (t : Topology) (id : String) : Scope :=
  let own := if t.has id then Scope.empty.bind selfKeyword id else .empty
  match t.topmost? id with
  | some host => own.bind hostKeyword host
  | none => own

def relationshipScope (t : Topology) (source : String) (r : Relationship) : Scope :=
  let start := if t.has source then Scope.empty.bind sourceKeyword source else .empty
  start.bind targetKeyword r.target

end Topology

end DeployPlan
