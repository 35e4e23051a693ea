import DeployPlan.FormatText
import DeployPlan.Scene

/-!
# Evaluating properties

Every evaluation has an outcome: what cannot be made out is unresolved, with a note in the log. A
property of a node is evaluated in that node's own scope and remembered for the rest of the pass;
one that is met again while it is being evaluated is unresolved.
-/
namespace DeployPlan

structure PropertyKey where
  node : String
  property : String
deriving DecidableEq, Repr

/-- What changes while a topology is compiled: the log, the properties evaluated so far, and those
being evaluated, the innermost first. -/
structure Pass where
  log : Log
  memo : List (PropertyKey × Resolution)
  resolving : List PropertyKey
deriving DecidableEq, Repr

def Pass.start (log : Log) : Pass := ⟨log, [], []⟩

def Pass.recall? (p : Pass) (key : PropertyKey) : Option Resolution := p.memo.lookup key

abbrev Eval := StateM Pass

namespace Eval

def note (level : Level) (message : String) (data : Fields) : Eval Unit :=
  modify fun p => { p with log := p.log.record level message (some (.obj data)) }

/-- Evaluates while a property counts as being evaluated, and remembers the outcome. -/
def remember (key : PropertyKey) (evaluate : Eval Resolution) : Eval Resolution := do
  modify fun p => { p with resolving := key :: p.resolving }
  let outcome ← evaluate
  modify fun p => { p with resolving := p.resolving.tail, memo := (key, outcome) :: p.memo }
  return outcome

def missingNode (call : FunctionCall) (key : String) : Eval Resolution := do
  note .debug s!"{call.name} references unknown node {key}"
    [("function", .str call.name), ("node", .str key)]
  return .unresolved

def badArity (call : FunctionCall) : Eval Resolution := do
  note .warn s!"{call.name} called with {call.args.length} arguments"
    [("function", .str call.name), ("args", .ofTexts call.args)]
  return .unresolved

def unsupported (call : FunctionCall) : Eval Resolution := do
  note .warn s!"unsupported function {call.name}"
    [("function", .str call.name), ("args", .ofTexts call.args)]
  return .unresolved

/-- The node that satisfies a requirement of another; one that is missing is noted. -/
def requirementTarget (s : Scene) (n : NodeTemplate) (requirement : String) :
    Eval (Option NodeTemplate) := do
  match (n.relationshipFor? requirement).bind fun r => s.topology.node? r.target with
  | some target => return some target
  | none =>
    note .debug "requirement has no resolvable target"
      [("node", .str n.id), ("requirement", .str requirement)]
    return none

/-- Evaluates a call. `read` evaluates a property of a node. An attribute of an entity that denotes
no node keeps the key in place of an id. -/
def resolveCall (read : PropertyKey → Eval Resolution) (s : Scene) (scope : Scope)
    (call : FunctionCall) : Eval Resolution :=
  if call.name = "get_property" then
    match call.args with
    | [key, property] =>
      match s.entity? scope key with
      | none => missingNode call key
      | some n => read ⟨n.id, property⟩
    | [key, requirement, property] =>
      match s.entity? scope key with
      | none => missingNode call key
      | some n => do
        match ← requirementTarget s n requirement with
        | some target => read ⟨target.id, property⟩
        | none => return .unresolved
    | _ => badArity call
  else if call.name = "get_attribute" then
    match call.args with
    | [key, name] =>
      match s.entity? scope key with
      | some n => return .deferred (.gap ⟨n.id, name⟩)
      | none => do
        let _ ← missingNode call key
        return .deferred (.gap ⟨key, name⟩)
    | [key, requirement, name] =>
      match s.entity? scope key with
      | none => missingNode call key
      | some n => do
        match ← requirementTarget s n requirement with
        | some target => return .deferred (.gap ⟨target.id, name⟩)
        | none => return .unresolved
    | _ => badArity call
  else unsupported call

mutual

/-- Evaluates a property value in a scope. `read` evaluates a property of a node. -/
def resolveWith (read : PropertyKey → Eval Resolution) (s : Scene) (scope : Scope) :
    PropertyValue → Eval Resolution
  | .scalar text => return .resolved (.str text)
  | .complex fields => return .resolved (.obj fields)
  | .list items => return .resolved (.arr items)
  | .concat parts => do
    let format ← resolveParts read s scope .empty parts
    return format.toResolution
  | .call call => resolveCall read s scope call
  | .other raw => do
    note .warn "unrecognized property value" [("value", raw)]
    return .unresolved

def resolveParts (read : PropertyKey → Eval Resolution) (s : Scene) (scope : Scope)
    (format : FormatText) : List PropertyValue → Eval FormatText
  | [] => return format
  | part :: parts => do
    let outcome ← resolveWith read s scope part
    resolveParts read s scope (format.pushResolution outcome) parts

end

/-- The outcome of a property: the one remembered, nothing while it is being evaluated or when no
value is declared, else the outcome of `evaluate` for the declared value. -/
def readProperty (s : Scene) (evaluate : PropertyValue → Eval Resolution) (key : PropertyKey) :
    Eval Resolution := do
  let p ← get
  match p.recall? key with
  | some outcome => return outcome
  | none =>
    if p.resolving.contains key then
      note .warn "cyclic get_property reference"
        [("node", .str key.node), ("property", .str key.property)]
      return .unresolved
    else
      match s.rawProperty? key.node key.property with
      | none => return .unresolved
      | some raw => remember key (evaluate raw)

/-- Evaluates a property through at most `depth` properties that read one another. -/
def propertyWithin (s : Scene) : Nat → PropertyKey → Eval Resolution
  | 0, key => readProperty s (fun _ => return .unresolved) key
  | depth + 1, key =>
    readProperty s (resolveWith (propertyWithin s depth) s (s.topology.nodeScope key.node)) key

/-- How many properties nodes and their types declare. A chain of evaluations, each inside the one
before, is never longer. -/
def declaredProperties (s : Scene) : Nat :=
  s.topology.nodes.foldl (fun count n =>
    count + n.properties.size + (s.profile n.nodeType).properties.size) 0

/-- The outcome of a node's property in that node's own scope. -/
def nodeProperty (s : Scene) (key : PropertyKey) : Eval Resolution :=
  propertyWithin s (declaredProperties s) key

def resolve (s : Scene) (scope : Scope) (v : PropertyValue) : Eval Resolution :=
  resolveWith (nodeProperty s) s scope v

/-- The outcomes of all properties of a node in name order. -/
def nodeProperties (s : Scene) (id : String) : Eval (List (String × Resolution)) :=
  (s.propertyNames id).mapM fun name => do
    let outcome ← nodeProperty s ⟨id, name⟩
    return (name, outcome)

end Eval

end DeployPlan
