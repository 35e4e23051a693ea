import DeployPlan.Proofs.Evaluation.Pass

/-!
# The node that a key denotes

Properties and attributes are read of the node that an entity key denotes. An attribute of a key
that denotes none keeps the key in the place of a node's id; so the two agree on a key unless it
denotes no node and is the id of one all the same.
-/
namespace DeployPlan

namespace Scene

/-- The reading of a property of the node that a key denotes. -/
def propertyOf (key property : String) : FunctionCall := ⟨"get_property", [key, property]⟩

/-- The reading of an attribute of the node that a key denotes. -/
def attributeOf (key name : String) : FunctionCall := ⟨"get_attribute", [key, name]⟩

/-- Reading any property by a key is reading that property of a node. -/
def ReadsFrom (s : Scene) (scope : Scope) (key id : String) : Prop :=
  ∀ property, s.readBy? scope (propertyOf key property) = some ⟨id, property⟩ ∧
    Eval.resolve s scope (.call (propertyOf key property)) = Eval.nodeProperty s ⟨id, property⟩

/-- Reading an attribute by a key, in some pass, leaves an attribute to run time. -/
def LeavesGap (s : Scene) (scope : Scope) (key : String) (a : AttributeRef) : Prop :=
  ∃ name p, (Eval.resolve s scope (.call (attributeOf key name)) p).1 = .deferred (.gap a)

/-- Attributes by a key are those of the node that properties by the key are read of, when they are
attributes of a node at all; a key that denotes no node leaves none of an existing one. -/
structure KeyAgrees (s : Scene) (scope : Scope) (key : String) : Prop where
  reads : ∀ a, s.LeavesGap scope key a → s.topology.has a.node = true →
    s.ReadsFrom scope key a.node
  misses : s.entity? scope key = none → ∀ a, s.LeavesGap scope key a →
    s.topology.has a.node = false

/-- A key that denotes no node: an alias of an id that no node has, a keyword that is not bound, or
any other key that is neither an id nor a name. -/
theorem entity?_eq_none_iff {s : Scene} {scope : Scope} {key : String} :
    s.entity? scope key = none ↔
      (∃ id, scope.get? key = some id ∧ s.topology.has id = false) ∨
        scope.get? key = none ∧
          (isKeyword key = true ∨ s.topology.nodeByIdOrName? key = none) := by
  unfold entity?
  cases scope.get? key with
  | some id => simp [Topology.has]
  | none => cases isKeyword key <;> simp

variable {s : Scene} {scope : Scope} {key : String} {n : NodeTemplate} {a : AttributeRef}

/-- An id that denotes no node is a keyword that is not bound, or an alias of an id that no node
has. -/
theorem entity?_eq_none_iff_of_has (h : s.topology.has key = true) :
    s.entity? scope key = none ↔ scope.get? key = none ∧ isKeyword key = true ∨
      ∃ id, scope.get? key = some id ∧ s.topology.has id = false := by
  have hfound : s.topology.nodeByIdOrName? key ≠ none := by
    obtain ⟨n, hn⟩ := Option.isSome_iff_exists.1 h
    simp [Topology.nodeByIdOrName?, hn]
  rw [entity?_eq_none_iff, or_comm]
  simp only [hfound, or_false]

theorem readsFrom_of_entity? (h : s.entity? scope key = some n) :
    s.ReadsFrom scope key n.id := by
  intro property
  refine ⟨?_, ?_⟩
  · simp only [readBy?, propertyOf, if_true, h, Option.map_some]
  · simp only [Eval.resolve, Eval.resolveWith, Eval.resolveCall, propertyOf, if_true, h]

/-- An attribute is left to run time as one of the node that the key denotes, else as one of the
key. -/
theorem leavesGap_iff : s.LeavesGap scope key a ↔
    a.node = ((s.entity? scope key).map (·.id)).getD key := by
  have hrun (name : String) (p : Pass) :
      (Eval.resolve s scope (.call (attributeOf key name)) p).1 =
        .deferred (.gap ⟨((s.entity? scope key).map (·.id)).getD key, name⟩) := by
    obtain ⟨-, -, hval⟩ :=
      (Eval.visits_resolve s p.resolving scope (.call (attributeOf key name))).run p rfl
    rw [hval]
    rfl
  constructor
  · rintro ⟨name, p, h⟩
    rw [hrun] at h
    cases h
    rfl
  · intro h
    refine ⟨a.name, .start (.start .info false), ?_⟩
    rw [hrun, ← h]

/-- Attributes and properties by a key agree on the node that it denotes, except exactly when the
key is the id of a node and denotes none: as a keyword that is not bound in the scope, or as an
alias of an id that no node has. -/
theorem keyAgrees_iff (s : Scene) (scope : Scope) (key : String) :
    s.KeyAgrees scope key ↔ ¬ (s.topology.has key = true ∧
      (scope.get? key = none ∧ isKeyword key = true ∨
        ∃ id, scope.get? key = some id ∧ s.topology.has id = false)) := by
  constructor
  · rintro h ⟨hkey, hmiss⟩
    have hnone := (entity?_eq_none_iff_of_has hkey).2 hmiss
    have hgap : s.LeavesGap scope key ⟨key, "ip"⟩ := leavesGap_iff.2 (by rw [hnone]; rfl)
    have hhas := h.misses hnone _ hgap
    rw [hkey] at hhas
    cases hhas
  · intro h
    refine ⟨fun a hgap hhas => ?_, fun hnone a hgap => ?_⟩
    · rw [leavesGap_iff] at hgap
      cases hentity : s.entity? scope key with
      | some n =>
        rw [hentity] at hgap
        rw [hgap]
        exact readsFrom_of_entity? hentity
      | none =>
        rw [hentity] at hgap
        rw [hgap] at hhas
        exact absurd ⟨hhas, (entity?_eq_none_iff_of_has hhas).1 hentity⟩ h
    · rw [leavesGap_iff, hnone] at hgap
      rw [hgap]
      by_contra hhas
      have hhas : s.topology.has key = true := by simpa using hhas
      exact h ⟨hhas, (entity?_eq_none_iff_of_has hhas).1 hnone⟩

def keywordNode : Scene where
  topology := {
    name := "site"
    nodes := [⟨"web", "App", none, none, ∅, [], [], [], []⟩,
      ⟨"TARGET", "Machine", none, none, .ofEntries [("port", .scalar "80")], [], [], [], []⟩]
    groups := []
    dependencies := []
    archive := none }
  profiles := []

/-- In a node's own scope the keyword for the end of a relationship is not bound: no property is
read by it, and yet its attributes are those of the node that is called like it. -/
theorem not_keyAgrees_keywordNode :
    ¬ keywordNode.KeyAgrees (keywordNode.topology.nodeScope "web") "TARGET" ∧
    (Eval.resolve keywordNode (keywordNode.topology.nodeScope "web")
      (.call (propertyOf "TARGET" "port")) (.start (.start .error false))).1 = .unresolved ∧
    (Eval.resolve keywordNode (keywordNode.topology.nodeScope "web")
      (.call (attributeOf "TARGET" "ip")) (.start (.start .error false))).1 =
        .deferred (.gap ⟨"TARGET", "ip"⟩) := by
  have hproperty : (Eval.resolve keywordNode (keywordNode.topology.nodeScope "web")
      (.call (propertyOf "TARGET" "port")) (.start (.start .error false))).1 = .unresolved := by
    decide +kernel
  have hattribute : (Eval.resolve keywordNode (keywordNode.topology.nodeScope "web")
      (.call (attributeOf "TARGET" "ip")) (.start (.start .error false))).1 =
        .deferred (.gap ⟨"TARGET", "ip"⟩) := by
    decide +kernel
  have hnone : keywordNode.entity? (keywordNode.topology.nodeScope "web") "TARGET" = none := by
    decide +kernel
  refine ⟨fun h => ?_, hproperty, hattribute⟩
  have hhas := h.misses hnone ⟨"TARGET", "ip"⟩ ⟨"ip", _, hattribute⟩
  revert hhas
  decide +kernel

end Scene

end DeployPlan
