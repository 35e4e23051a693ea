import DeployPlan.FormatText
import DeployPlan.NameMap
import DeployPlan.Tree

/-!
# Deployment plans

A plan has one tree per containment root. Each of its nodes carries what one declared node compiles
to: its implementation, its values, its lifecycle commands and its decorations.
-/
namespace DeployPlan

inductive ImplementationKind where
  /-- By an entry of the catalog. -/
  | registered (name : String)
  /-- As a compute node that hosts several nodes. -/
  | coLocation
  /-- As a compute node that hosts at most one node. -/
  | applicationRoot
  /-- By a native implementation. -/
  | native (name : String)
  /-- By the scripts of its operations. -/
  | scriptedProcess
deriving DecidableEq, Repr

/-- The moments of a node's life that have a command, in the order of a plan. -/
inductive CommandSlot where
  | install
  | configure
  | launch
  | stop
  | preConfigure
  | postConfigure
  | checkRunning
deriving DecidableEq, Repr

namespace CommandSlot

def all : List CommandSlot :=
  [install, configure, launch, stop, preConfigure, postConfigure, checkRunning]

def rank : CommandSlot → Nat
  | install => 0
  | configure => 1
  | launch => 2
  | stop => 3
  | preConfigure => 4
  | postConfigure => 5
  | checkRunning => 6

def name : CommandSlot → String
  | install => "install"
  | configure => "configure"
  | launch => "launch"
  | stop => "stop"
  | preConfigure => "pre_configure"
  | postConfigure => "post_configure"
  | checkRunning => "check_running"

instance : Ord CommandSlot := ⟨compareOn rank⟩

theorem rank_inj {a b : CommandSlot} (h : a.rank = b.rank) : a = b := by
  cases a <;> cases b <;> first | rfl | (exact absurd h (by decide))

instance : Std.TransOrd CommandSlot := inferInstanceAs (Std.TransCmp (compareOn rank))

instance : Std.LawfulEqOrd CommandSlot where
  eq_of_compare h := rank_inj (Nat.compare_eq_eq.1 h)

end CommandSlot

/-- How a behaviour acts on what it is attached to. -/
inductive BehaviorCategory where
  | policy
  | enricher
  | initializer
deriving DecidableEq, Repr

def BehaviorCategory.name : BehaviorCategory → String
  | policy => "policy"
  | enricher => "enricher"
  | initializer => "initializer"

def BehaviorCategory.ofName? : String → Option BehaviorCategory
  | "policy" => some policy
  | "enricher" => some enricher
  | "initializer" => some initializer
  | _ => none

/-- A behaviour attached to nodes or to the whole plan. -/
structure Behavior where
  name : String
  category : BehaviorCategory
  behaviorType : String
  config : Fields
deriving DecidableEq, Repr

/-- What a scripted process needs before it is installed. -/
structure RuntimeEnvironment where
  preInstallCommands : List String
  /-- Where each local file is copied to. -/
  preInstallFiles : NameMap String
  shellEnv : NameMap String
deriving DecidableEq

namespace RuntimeEnvironment

def empty : RuntimeEnvironment := ⟨[], ∅, ∅⟩

def isEmpty (r : RuntimeEnvironment) : Bool :=
  r.preInstallCommands.isEmpty && r.preInstallFiles.isEmpty && r.shellEnv.isEmpty

end RuntimeEnvironment

/-- What an implementation brings to the plan of a node. -/
structure Implementation where
  /-- Keys that the implementation types; others pass through. -/
  configKeys : List String
  config : NameMap PlanValue
  /-- Whether lifecycle scripts are compiled as for a scripted process. -/
  scripted : Bool
deriving DecidableEq

def Implementation.empty : Implementation := ⟨[], ∅, false⟩

/-- What one declared node compiles to, the nodes placed on it aside. -/
structure NodePlan where
  id : String
  nodeType : String
  displayName : String
  kind : ImplementationKind
  properties : NameMap PlanValue
  config : NameMap PlanValue
  passthrough : NameMap PlanValue
  provisioning : NameMap Json
  commands : Std.ExtTreeMap CommandSlot PlanValue
  attributes : NameMap PlanValue
  runtime : RuntimeEnvironment
  locations : List Json
  behaviors : List Behavior
  configKeys : List String
  scripted : Bool
deriving DecidableEq

namespace NodePlan

/-- The plan that a kind and an implementation start from. -/
def start (kind : ImplementationKind) (i : Implementation) : NodePlan where
  id := ""
  nodeType := ""
  displayName := ""
  kind := kind
  properties := ∅
  config := i.config
  passthrough := ∅
  provisioning := ∅
  commands := ∅
  attributes := ∅
  runtime := .empty
  locations := []
  behaviors := []
  configKeys := i.configKeys
  scripted := i.scripted || kind = .scriptedProcess

/-- Whether a key goes to the typed config: its implementation declares it, or has set it. -/
def isTyped (p : NodePlan) (key : String) : Bool :=
  p.configKeys.contains key || p.config.contains key

/-- A map with `value` under `key`, joined to a value that is there. -/
def joinInto (m : NameMap PlanValue) (key : String) (value : PlanValue) : NameMap PlanValue :=
  m.insert key (match m[key]? with
    | some old => old.join value
    | none => value)

/-- Sets a key of the typed config or of what passes through; a key set before is joined. -/
def putConfig (p : NodePlan) (key : String) (value : PlanValue) : NodePlan :=
  if p.isTyped key then { p with config := joinInto p.config key value }
  else { p with passthrough := joinInto p.passthrough key value }

/-- What passes through, with the typed config on top. -/
def effectiveConfig (p : NodePlan) : NameMap PlanValue := p.passthrough.overlay p.config

def setCommand (p : NodePlan) (slot : CommandSlot) (v : PlanValue) : NodePlan :=
  { p with commands := p.commands.insert slot v }

end NodePlan

/-- The node plans of one containment root. -/
abbrev PlanTree := Tree NodePlan

structure Plan where
  name : String
  roots : List PlanTree
  behaviors : List Behavior

namespace Plan

def hasId (id : String) (p : NodePlan) : Bool := p.id = id

def root? (p : Plan) (id : String) : Option PlanTree := p.roots.find? (hasId id ·.label)

def find? (p : Plan) (id : String) : Option PlanTree := Tree.findIn? (hasId id) p.roots

/-- A plan with the first node of an id changed, unless there is no such node. -/
def update? (p : Plan) (id : String) (f : PlanTree → PlanTree) : Option Plan :=
  (Tree.updateIn? (hasId id) f p.roots).map fun roots => { p with roots := roots }

/-- A plan with the first node of an id changed, if there is one. -/
def update (p : Plan) (id : String) (f : PlanTree → PlanTree) : Plan := (p.update? id f).getD p

def nodeCount (p : Plan) : Nat := Tree.countOf p.roots

end Plan

def PlanTree.childIds (t : PlanTree) : List String := t.children.map (·.label.id)

end DeployPlan
