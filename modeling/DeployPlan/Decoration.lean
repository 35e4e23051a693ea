import DeployPlan.Failure
import DeployPlan.Log
import DeployPlan.Registry

/-!
# Group decorations

The policies of groups decorate a finished plan. A location replaces the locations of every member;
a behaviour is attached to every member, or to the whole plan when its group has none.
-/
namespace DeployPlan

/-- The locations that a location policy gives: its value, or else its location, with the items of
a list one by one; data with neither is itself a location unless it is empty. -/
def locationValues (data : Fields) : List Json :=
  match Entries.first? ["value", "location"] data with
  | some (.arr items) => items
  | some v => [v]
  | none => if data.isEmpty then [] else [.obj data]

namespace Plan

def updateNode (p : Plan) (f : NodePlan → NodePlan) (id : String) : Plan :=
  p.update id (Tree.mapLabel f)

def updateNodes (p : Plan) (ids : List String) (f : NodePlan → NodePlan) : Plan :=
  ids.foldl (fun p id => p.updateNode f id) p

def setLocations (p : Plan) (ids : List String) (locations : List Json) : Plan :=
  p.updateNodes ids fun n => { n with locations := locations }

/-- A plan with a behaviour attached to some nodes, or to the plan when there are none. -/
def attach (p : Plan) (ids : List String) (b : Behavior) : Plan :=
  if ids.isEmpty then { p with behaviors := p.behaviors ++ [b] }
  else p.updateNodes ids fun n => { n with behaviors := n.behaviors ++ [b] }

end Plan

namespace Group

/-- The type of a behaviour policy, which has to be there and not blank. -/
def behaviorType (g : Group) (policy : Policy) : Except Failure String :=
  match policy.behaviorType with
  | some t =>
    if Text.isBlank t then .error (.compile (.missingBehaviorType g.name policy.name)) else .ok t
  | none => .error (.compile (.missingBehaviorType g.name policy.name))

/-- The category of a behaviour type; one that is not registered counts as a policy, with a
warning. -/
def categoryOf (g : Group) (r : Registry) (behaviorType : String) (log : Log) :
    BehaviorCategory × Log :=
  match r.category? behaviorType with
  | some c => (c, log)
  | none =>
    (.policy,
      log.record .warn s!"behavior type {behaviorType} is not registered; attaching as policy"
        (some (.obj [("group", .str g.name), ("type", .str behaviorType)])))

def applyPolicy (g : Group) (r : Registry) (policy : Policy) (p : Plan) (log : Log) :
    Except Failure Plan × Log :=
  match policy.kind with
  | .location => (.ok (p.setLocations g.members (locationValues policy.data)), log)
  | .behavior =>
    match g.behaviorType policy with
    | .error f => (.error f, log)
    | .ok t =>
      let (c, log) := g.categoryOf r t log
      (.ok (p.attach g.members ⟨policy.name, c, t, policy.data⟩), log)

def applyPolicies (g : Group) (r : Registry) : List Policy → Plan → Log → Except Failure Plan × Log
  | [], p, log => (.ok p, log)
  | policy :: rest, p, log =>
    match g.applyPolicy r policy p log with
    | (.ok p, log) => g.applyPolicies r rest p log
    | (.error f, log) => (.error f, log)

def strayMember? (g : Group) (p : Plan) : Option String :=
  g.members.find? fun id => (p.find? id).isNone

/-- A plan decorated by a group. Members that are not in the plan are refused before any policy is
looked at. -/
def decorate (g : Group) (r : Registry) (p : Plan) (log : Log) : Except Failure Plan × Log :=
  match g.strayMember? p with
  | some id => (.error (.compile (.unknownGroupMember g.name id)), log)
  | none => g.applyPolicies r g.policies p log

end Group

def Plan.decorate (r : Registry) : List Group → Plan → Log → Except Failure Plan × Log
  | [], p, log => (.ok p, log)
  | g :: rest, p, log =>
    match g.decorate r p log with
    | (.ok p, log) => Plan.decorate r rest p log
    | (.error f, log) => (.error f, log)

end DeployPlan
