import DeployPlan.Build.Commands
import DeployPlan.Build.Selection
import DeployPlan.Build.Staging
import DeployPlan.Build.Values
import DeployPlan.Containment
import DeployPlan.Decoration

/-!
# Compiling topologies

A topology compiles to one tree per containment root, a root's tree being built when the first node
of it is met in declaration order. A compiler keeps the first plan it succeeds with; a failure is
not kept, and what its pass recorded stays as diagnostics.
-/
namespace DeployPlan

namespace Build

def passTags : Fields := [("component", .str "assembler")]

def nodeTags (id : String) : Fields := [("node", .str id)]

def template (job : Job) (id : String) : Build NodeTemplate :=
  match job.scene.topology.node? id with
  | some n => return n
  | none => fail (.compile (.nodeNotFound id none))

/-- What only scripted node plans have: staged files, attributes and commands. -/
def putScripted (job : Job) (n : NodeTemplate) (p : NodePlan) : Build NodePlan := do
  let p ← putRuntime job n p
  let p ← putAttributes job n p
  putCommands job n p

/-- The plan of a node on which `children` nodes are placed. -/
def nodePlan (job : Job) (id : String) (children : Nat) : Build NodePlan := do
  let n ← template job id
  let p ← select job n children
  let p ← putProperties job n p
  let p ← putInjected job n (putProvisioning job n p)
  if p.scripted then putScripted job n p else return p

mutual

/-- The tree of node plans over a tree of ids: a node's own plan comes before those below it, and is
for all nodes that the graph places on it. `visited` holds the nodes met before; those met after are
given back. -/
def tree (job : Job) (g : Containment) :
    Tree String → List String → Build (PlanTree × List String)
  | .node id below, visited =>
    tagged (nodeTags id) do
      let p ← nodePlan job id (g.childCount id)
      let (children, visited) ← trees job g below (id :: visited)
      return (.node p children, visited)

/-- The trees of node plans over trees of ids in turn, those of nodes met before left out. -/
def trees (job : Job) (g : Containment) :
    List (Tree String) → List String → Build (List PlanTree × List String)
  | [], visited => return ([], visited)
  | t :: ts, visited =>
    if visited.contains t.label then trees job g ts visited
    else do
      let (first, visited) ← tree job g t visited
      let (rest, visited) ← trees job g ts visited
      return (first :: rest, visited)

end

/-- The trees below the roots above some nodes, in the order in which the roots are met. `visited`
holds the nodes met before. -/
def forest (job : Job) : List String → Containment → List String → Build (List PlanTree)
  | [], _, _ => return []
  | id :: ids, g, visited => do
    let (found, g) := g.root id
    let root ← ofExcept found
    if visited.contains root then forest job ids g visited
    else
      let (first, visited) ← tree job g (g.tree root) visited
      let rest ← forest job ids g visited
      return first :: rest

/-- A build that changes only the log. -/
def onLog {α : Type} (f : Log → Except Failure α × Log) : Build α := fun p =>
  match f p.log with
  | (outcome, log) => (outcome, { p with log := log })

/-- The first relationship whose target is not declared, as its target and its source. -/
def strayTarget? (t : Topology) : Option (String × String) :=
  t.nodes.findSome? fun n =>
    (n.relationships.find? fun r => !t.has r.target).map fun r => (r.target, n.id)

def checkTargets (t : Topology) : Build Unit :=
  match strayTarget? t with
  | some (target, source) => fail (.compile (.nodeNotFound target (some source)))
  | none => return ()

def plan (job : Job) : Build Plan := do
  let t := job.scene.topology
  let g ← onLog (Containment.build t)
  checkTargets t
  let roots ← forest job g.ids g []
  let p ← onLog (Plan.decorate job.registry t.groups ⟨t.name, roots, []⟩)
  Eval.note .info "topology compiled"
    [("roots", .ofNat p.roots.length), ("nodes", .ofNat p.nodeCount)]
  return p

def taggedPlan (job : Job) : Build Plan := tagged passTags (plan job)

end Build

/-- What a compilation reads apart from the topology and its settings. -/
structure Surroundings where
  types : TypeLookup
  registry : Registry
  files : Store

def Log.recordFailure (log : Log) (f : Failure) : Log :=
  log.record .error "compilation failed" (some (.obj [("error", .str f.text)]))

/-- One compilation: its outcome and its log at the end. A type that cannot be looked up ends it
before anything is built, and nothing stays captured. -/
def compileOnce (s : Settings) (env : Surroundings) (t : Topology) : Except Failure Plan × Log :=
  match Scene.build env.types t s.logging.start with
  | (.error f, log) => (.error f, log.take.2)
  | (.ok scene, log) =>
    match Build.taggedPlan ⟨scene, env.registry, env.files, s⟩ (Pass.start log) with
    | (.ok p, pass) => (.ok p, pass.log)
    | (.error f, pass) => (.error f, pass.log.recordFailure f)

/-- A topology, the plan it compiled to, if it did, and what the last compilation recorded. -/
structure Compiler where
  topology : Topology
  settings : Settings
  compiled : Option Plan
  diagnostics : List LogEntry

namespace Compiler

def start (t : Topology) (s : Settings) : Compiler := ⟨t, s, none, []⟩

def isCompiled (c : Compiler) : Bool := c.compiled.isSome

/-- The plan of the topology: the one that is kept, else that of a compilation. -/
def compile (c : Compiler) (env : Surroundings) : Except Failure Plan × Compiler :=
  match c.compiled with
  | some p => (.ok p, c)
  | none =>
    match compileOnce c.settings env c.topology with
    | (.ok p, log) => (.ok p, { c with compiled := some p, diagnostics := log.captured })
    | (.error f, log) => (.error f, { c with diagnostics := log.captured })

/-- A plan that is kept is the answer of every later compilation. -/
theorem compile_of_compiled {c : Compiler} {p : Plan} (h : c.compiled = some p)
    (env : Surroundings) : c.compile env = (.ok p, c) := by
  simp [compile, h]

end Compiler

end DeployPlan
