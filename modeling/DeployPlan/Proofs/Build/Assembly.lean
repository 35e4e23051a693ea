import DeployPlan.Proofs.Build.Readings

/-!
# What a node plan is assembled from

The config of a node plan starts with what its implementation has set. The resolved properties of
the node are put first, then the references of its artifacts, then what its relationships write;
whatever else a plan gets leaves properties and config alone.
-/
namespace DeployPlan

namespace Job

variable {job : Job} {last : Pass} {n : NodeTemplate} {p p' : NodePlan}

/-- The outcome of a property of a relationship that starts from a node, as a pass resolves it. -/
def edgeOutcome (job : Job) (last : Pass) (n : NodeTemplate) (r : Relationship) (name : String) :
    Resolution :=
  (Build.edgeProperty job (job.scene.topology.relationshipScope n.id r) r name last).1

/-- The config entry that a relationship writes, unless it names nowhere. A value that is not
resolved is written as an empty text. -/
def injected? (job : Job) (last : Pass) (n : NodeTemplate) (r : Relationship) :
    Option (String × PlanValue) :=
  injection? (job.edgeOutcome last n r "prop.name").literalText
    (job.edgeOutcome last n r "prop.collection").literalText
    ((PlanValue.ofResolution? (job.edgeOutcome last n r "prop.value")).getD (.ofText "")).json

/-- The config entries that the relationships of a node write, in order. -/
def injectedEntries (job : Job) (last : Pass) (n : NodeTemplate) : List (String × PlanValue) :=
  (Build.injecting job n).filterMap (job.injected? last n)

/-- The outcomes of the properties of a node in name order, as a pass remembers them. -/
def outcomes (job : Job) (last : Pass) (n : NodeTemplate) : List (String × Resolution) :=
  (job.scene.propertyNames n.id).map fun name => (name, Memo.answer last.memo ⟨n.id, name⟩)

/-- A plan that has nothing yet but the implementation of a node. -/
structure Selects (job : Job) (n : NodeTemplate) (p : NodePlan) : Prop where
  scripted : p.scripted = job.scripted n
  holds : ∃ i, job.implementation? n = some i ∧
    ∀ key, p.Holds key (i.types key) none i.config[key]?.toList

/-- A plan that has all properties and config of a node. -/
structure Assembles (job : Job) (last : Pass) (n : NodeTemplate) (p : NodePlan) : Prop where
  /-- All relationships that write into the config have done so. -/
  written : ∀ r ∈ Build.injecting job n, (job.injected? last n r).isSome
  holds : ∃ i, job.implementation? n = some i ∧
    ∀ key, p.Holds key (i.types key)
      (Entries.valuesUnder key (resolvedEntries (job.outcomes last n))).getLast?
      (i.config[key]?.toList ++
        Entries.valuesUnder key (resolvedEntries (job.outcomes last n)) ++
        Entries.valuesUnder key n.artifactEntries ++
        Entries.valuesUnder key (job.injectedEntries last n))

theorem Assembles.congr (h : job.Assembles last n p) (hvalues : p'.values = p.values) :
    job.Assembles last n p' := by
  obtain ⟨hwritten, i, hi, hholds⟩ := h
  exact ⟨hwritten, i, hi, fun key => (hholds key).congr hvalues⟩

/-- A plan that has all properties and config of one of some nodes, and its id. -/
def AssemblesOne (job : Job) (last : Pass) (ns : List NodeTemplate) (p : NodePlan) : Prop :=
  ∃ n ∈ ns, p.id = n.id ∧ job.Assembles last n p

theorem AssemblesOne.mono {ns ms : List NodeTemplate} (h : job.AssemblesOne last ns p)
    (hsub : ns ⊆ ms) : job.AssemblesOne last ms p := by
  obtain ⟨n, hn, hp⟩ := h
  exact ⟨n, hsub hn, hp⟩

/-- A plan is assembled by what is put on that of an implementation. -/
theorem Selects.assembles (h : job.Selects n p)
    (hwritten : ∀ r ∈ Build.injecting job n, (job.injected? last n r).isSome) :
    job.Assembles last n ((Build.putProvisioning job n
      ((p.putProperties (job.outcomes last n)).putEntries n.artifactEntries)).putEntries
        (job.injectedEntries last n)) := by
  obtain ⟨-, i, hi, hholds⟩ := h
  refine ⟨hwritten, i, hi, fun key => ?_⟩
  have hown := ((hholds key).putProperties (job.outcomes last n)).putEntries n.artifactEntries
  rw [Option.or_none] at hown
  exact (hown.congr (Build.values_putProvisioning job n _)).putEntries (job.injectedEntries last n)

end Job

end DeployPlan
