import DeployPlan.Containment
import DeployPlan.Proofs.Evaluation.Counterparts

/-!
# Topologies without display names

What a topology declares apart from display names decides which ids it has, where nodes are placed,
what the keywords stand for and which types are looked up.
-/
namespace DeployPlan

/-- A node template without its display name. -/
def NodeTemplate.unnamed (n : NodeTemplate) : NodeTemplate := { n with name := none }

theorem NodeTemplate.counterpart_unnamed (n : NodeTemplate) : n.Counterpart n.unnamed :=
  ⟨rfl, rfl, rfl, rfl, rfl⟩

namespace Topology

/-- A topology without display names. -/
def unnamed (t : Topology) : Topology := { t with nodes := t.nodes.map NodeTemplate.unnamed }

@[simp] theorem ids_unnamed (t : Topology) : t.unnamed.ids = t.ids := List.map_map

@[simp] theorem node?_unnamed (t : Topology) (id : String) :
    t.unnamed.node? id = (t.node? id).map NodeTemplate.unnamed := by
  rw [node?, node?, unnamed, ← List.map_reverse, List.find?_map]
  rfl

theorem counterpart_unnamed (t : Topology) : t.Counterpart t.unnamed := by
  rw [Counterpart, unnamed, List.forall₂_map_right_iff, List.forall₂_same]
  exact fun n _ => n.counterpart_unnamed

@[simp] theorem has_unnamed (t : Topology) (id : String) : t.unnamed.has id = t.has id :=
  t.counterpart_unnamed.has id

@[simp] theorem nodeScope_unnamed (t : Topology) (id : String) :
    t.unnamed.nodeScope id = t.nodeScope id :=
  t.counterpart_unnamed.nodeScope id

@[simp] theorem relationshipScope_unnamed (t : Topology) (source : String) (r : Relationship) :
    t.unnamed.relationshipScope source r = t.relationshipScope source r :=
  t.counterpart_unnamed.relationshipScope source r

end Topology

namespace Containment

theorem place_unnamed (t : Topology) (ns : List NodeTemplate) (log : Log) :
    place t.unnamed (ns.map NodeTemplate.unnamed) log = place t ns log := by
  induction ns generalizing log with
  | nil => rfl
  | cons n ns ih =>
    have hparent : n.unnamed.hostParent? = n.hostParent? := rfl
    have hnote : noteHost n.unnamed log = noteHost n log := rfl
    have hid : n.unnamed.id = n.id := rfl
    simp only [List.map_cons, place, hparent, hnote, hid, Topology.has_unnamed, ih]

@[simp] theorem build_unnamed (t : Topology) (log : Log) : build t.unnamed log = build t log := by
  have hplace : place t.unnamed t.unnamed.nodes log = place t t.nodes log :=
    place_unnamed t t.nodes log
  rw [build, build, hplace, Topology.ids_unnamed]

end Containment

namespace Scene

/-- A scene without display names. -/
def unnamed (s : Scene) : Scene := { s with topology := s.topology.unnamed }

theorem usedTypes_unnamed (t : Topology) : usedTypes t.unnamed = usedTypes t := by
  rw [usedTypes, Topology.unnamed, List.flatMap_map]
  rfl

theorem build_unnamed (lookup : TypeLookup) (t : Topology) (log : Log) :
    build lookup t.unnamed log =
      ((build lookup t log).1.map unnamed, (build lookup t log).2) := by
  have hdependencies : t.unnamed.dependencies = t.dependencies := rfl
  rw [build, build, usedTypes_unnamed, hdependencies]
  generalize gather lookup t.dependencies (usedTypes t) [] log = r
  obtain ⟨_ | _, _⟩ := r <;> rfl

theorem counterpart_unnamed (s : Scene) : s.Counterpart s.unnamed where
  topology := s.topology.counterpart_unnamed
  properties _ := rfl

end Scene

end DeployPlan
