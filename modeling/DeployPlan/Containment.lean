import DeployPlan.Failure
import DeployPlan.Log
import DeployPlan.Topology.Basic
import DeployPlan.Tree

/-!
# Containment

The graph of placements knows parents and children. It finds the root above a node by following
parents, and remembers what it found for every node on the way. A walk that comes back to a node it
passed is refused with the cycle.
-/
namespace DeployPlan

/-- Which node is placed on which, and the roots found so far. -/
structure Containment where
  /-- All nodes in declaration order. -/
  ids : List String
  /-- Each placed node with the node it is placed on, in declaration order. -/
  placements : List (String × String)
  /-- The root above each node that a walk has passed. -/
  roots : NameMap String
deriving DecidableEq

namespace Containment

/-- Warns of a host requirement that no relationship satisfies, and of a host that is given by a
property. -/
def noteHost (n : NodeTemplate) (log : Log) : Log :=
  if n.hostTarget?.isSome then log
  else
    let log :=
      if n.requiresHost then
        log.record .warn s!"node {n.id} declares a host requirement without a relationship"
          (some (.obj [("node", .str n.id)]))
      else log
    match n.hostProperty? with
    | some host =>
      log.record .warn
        s!"node {n.id} uses the deprecated host property; declare a host requirement"
        (some (.obj [("node", .str n.id), ("host", .str host)]))
    | none => log

/-- The placements of some nodes in order; a node placed on one that is not declared is refused. -/
def place (t : Topology) : List NodeTemplate → Log → Except Failure (List (String × String)) × Log
  | [], log => (.ok [], log)
  | n :: ns, log =>
    match n.hostParent? with
    | none => place t ns (noteHost n log)
    | some parent =>
      if t.has parent then
        match place t ns (noteHost n log) with
        | (.ok rest, log) => (.ok ((n.id, parent) :: rest), log)
        | (.error f, log) => (.error f, log)
      else (.error (.compile (.nodeNotFound parent (some n.id))), noteHost n log)

def build (t : Topology) (log : Log) : Except Failure Containment × Log :=
  match place t t.nodes log with
  | (.ok placements, log) => (.ok ⟨t.ids, placements, ∅⟩, log)
  | (.error f, log) => (.error f, log)

/-- The node that a node is placed on, the last of its placements counting. -/
def parent? (g : Containment) (id : String) : Option String := g.placements.reverse.lookup id

def children (g : Containment) (id : String) : List String :=
  (g.placements.filter (·.2 = id)).map (·.1)

def childCount (g : Containment) (id : String) : Nat := (g.children id).length

/-- Follows parents from `current` to the root above it, `path` being the nodes passed so far with
`current` first. A parent that was passed ends the walk with the cycle, which starts and ends with
that parent. -/
def climb (g : Containment) :
    Nat → List String → String → Except (List String) (String × List String)
  | 0, path, current => .ok (current, path)
  | n + 1, path, current =>
    match g.roots[current]? with
    | some root => .ok (root, path)
    | none =>
      match g.parent? current with
      | none => .ok (current, path)
      | some parent =>
        if path.contains parent then
          .error (parent :: (path.takeWhile (· ≠ parent)).reverse ++ [parent])
        else g.climb n (parent :: path) parent

def remember (g : Containment) (path : List String) (root : String) : Containment :=
  { g with roots := path.foldl (fun known id => known.insert id root) g.roots }

/-- The root above a node, and the graph that remembers it. A refused walk is not remembered. -/
def root (g : Containment) (id : String) : Except Failure String × Containment :=
  if g.ids.contains id then
    match g.climb (g.ids.length + 1) [id] id with
    | .ok (root, path) => (.ok root, g.remember path root)
    | .error chain => (.error (.compile (.cyclicHost chain)), g)
  else (.error (.compile (.nodeNotFound id none)), g)

def treeWithin (g : Containment) : Nat → String → Tree String
  | 0, id => .node id []
  | n + 1, id => .node id ((g.children id).map (g.treeWithin n))

/-- The tree of ids below a node. A way down that meets no node twice is no longer than the list of
nodes. -/
def tree (g : Containment) (id : String) : Tree String := g.treeWithin g.ids.length id

theorem place_ok {t : Topology} {ns : List NodeTemplate} {log log' : Log}
    {ps : List (String × String)} (h : place t ns log = (.ok ps, log')) :
    ps = ns.filterMap fun n => n.hostParent?.map (n.id, ·) := by
  induction ns generalizing log log' ps with
  | nil => simpa [place, eq_comm] using (Prod.mk.inj h).1
  | cons n ns ih =>
    unfold place at h
    split at h
    · next hp => simpa [hp] using ih h
    · next parent hp =>
      split at h
      · split at h
        · next rest log₁ hr =>
          obtain ⟨h₁, _⟩ := Prod.mk.inj h
          cases h₁
          simp [hp, ih hr]
        · simp at h
      · simp at h

theorem placements_remember (g : Containment) (path : List String) (root : String) :
    (g.remember path root).placements = g.placements := rfl

/-- Finding roots changes no placement. -/
@[simp] theorem placements_root (g : Containment) (id : String) :
    (g.root id).2.placements = g.placements := by
  unfold root
  split
  · split <;> rfl
  · rfl

@[simp] theorem ids_root (g : Containment) (id : String) : (g.root id).2.ids = g.ids := by
  unfold root
  split
  · split <;> rfl
  · rfl

end Containment

end DeployPlan
