import DeployPlan.Build.Selection
import DeployPlan.Proofs.Registry

/-!
# What makes an implementation

An implementation is made by an entry of the catalog or by a native one, or it is empty.
-/
namespace DeployPlan

/-- What makes the implementation of a node, with the kind it gives and what it is called when it
fails. -/
structure Maker where
  kind : ImplementationKind
  label : String
  factory : Factory

namespace Job

/-- What makes the implementation of a node: an entry of the catalog, else a native one unless the
node is a compute node. -/
def maker? (job : Job) (n : NodeTemplate) : Option Maker :=
  match job.registry.findCatalog? n.nodeType n.typeVersion with
  | some (name, f) => some ⟨.registered name, s!"catalog entry {name}", f⟩
  | none =>
    if (job.profile n.nodeType).isA computeType then none
    else (job.registry.findNative? n.nodeType).map fun hit =>
      ⟨.native hit.1, s!"native implementation {hit.1}", hit.2⟩

/-- The kind of a node whose implementation is empty. -/
def emptyKind (job : Job) (n : NodeTemplate) (children : Nat) : ImplementationKind :=
  if (job.profile n.nodeType).isA computeType then
    if 1 < children then .coLocation else .applicationRoot
  else .scriptedProcess

variable {job : Job} {n : NodeTemplate}

theorem choose_of_maker {m : Maker} (h : job.maker? n = some m) (children : Nat) :
    job.choose n children = (runFactory m.label m.factory n).map (m.kind, ·) := by
  cases hcatalog : job.registry.findCatalog? n.nodeType n.typeVersion with
  | some hit =>
    simp only [maker?, hcatalog, Option.some.injEq] at h
    cases h
    simp only [choose, hcatalog]
    rfl
  | none =>
    simp only [maker?, hcatalog] at h
    by_cases hcompute : (job.profile n.nodeType).isA computeType = true
    · rw [if_pos hcompute] at h
      cases h
    · rw [if_neg hcompute] at h
      obtain ⟨hit, hhit, rfl⟩ := Option.map_eq_some_iff.1 h
      simp only [choose, hcatalog, if_neg hcompute, hhit]
      rfl

theorem choose_of_no_maker (h : job.maker? n = none) (children : Nat) :
    job.choose n children = .ok (job.emptyKind n children, .empty) := by
  cases hcatalog : job.registry.findCatalog? n.nodeType n.typeVersion with
  | some hit =>
    simp only [maker?, hcatalog] at h
    cases h
  | none =>
    simp only [maker?, hcatalog] at h
    by_cases hcompute : (job.profile n.nodeType).isA computeType = true
    · simp only [choose, hcatalog, if_pos hcompute, emptyKind]
    · rw [if_neg hcompute] at h
      simp only [choose, hcatalog, if_neg hcompute, Option.map_eq_none_iff.1 h, emptyKind]

/-- No implementation can be chosen exactly when the factory that is to make it fails. -/
theorem choose_eq_error_iff {children : Nat} {f : Failure} : job.choose n children = .error f ↔
    ∃ m g, job.maker? n = some m ∧ m.factory n = .error g ∧
      .within s!"{m.label} failed for node {n.id}" g = f := by
  cases hm : job.maker? n with
  | none => simp [choose_of_no_maker hm]
  | some m =>
    rw [choose_of_maker hm, runFactory]
    cases hf : m.factory n with
    | error g =>
      constructor
      · intro h
        cases h
        exact ⟨m, g, rfl, hf, rfl⟩
      · rintro ⟨m', g', hm', hg', rfl⟩
        cases hm'
        rw [hf] at hg'
        cases hg'
        rfl
    | ok i =>
      constructor
      · intro h
        cases h
      · rintro ⟨m', g', hm', hg', -⟩
        cases hm'
        rw [hf] at hg'
        cases hg'

/-- How many nodes are placed on a node decides neither its implementation nor whether it is a
scripted process. -/
theorem choose_of_choose {children : Nat} {kind : ImplementationKind} {i : Implementation}
    (h : job.choose n children = .ok (kind, i)) (others : Nat) :
    ∃ kind', job.choose n others = .ok (kind', i) ∧
      (kind' = .scriptedProcess ↔ kind = .scriptedProcess) := by
  cases hm : job.maker? n with
  | some m =>
    rw [choose_of_maker hm, ← choose_of_maker hm others] at h
    exact ⟨kind, h, Iff.rfl⟩
  | none =>
    rw [choose_of_no_maker hm] at h
    cases h
    refine ⟨_, choose_of_no_maker hm others, ?_⟩
    unfold emptyKind
    split
    · split <;> split <;> simp
    · rfl

/-- A node is built as a scripted process. -/
def scripted (job : Job) (n : NodeTemplate) : Bool :=
  match job.choose n 0 with
  | .ok (kind, i) => (NodePlan.start kind i).scripted
  | .error _ => false

theorem scripted_of_choose {children : Nat} {kind : ImplementationKind} {i : Implementation}
    (h : job.choose n children = .ok (kind, i)) :
    (NodePlan.start kind i).scripted = job.scripted n := by
  obtain ⟨kind', hchoose, hkind⟩ := choose_of_choose h 0
  rw [scripted, hchoose]
  simp only [NodePlan.start, hkind]

def implementation? (job : Job) (n : NodeTemplate) : Option Implementation :=
  ((job.choose n 0).toOption).map (·.2)

theorem implementation?_of_choose {children : Nat} {kind : ImplementationKind}
    {i : Implementation} (h : job.choose n children = .ok (kind, i)) :
    job.implementation? n = some i := by
  obtain ⟨kind', hchoose, -⟩ := choose_of_choose h 0
  rw [implementation?, hchoose]
  rfl

theorem registered_of_maker {m : Maker} (h : job.maker? n = some m) :
    ∃ key : String, job.registry.catalog[key]? = some m.factory ∨
      job.registry.natives[key]? = some m.factory := by
  unfold maker? at h
  split at h
  · next name f hf =>
    cases h
    exact ⟨name, .inl (Registry.mem_of_findCatalog? hf)⟩
  · split at h
    · cases h
    · obtain ⟨hit, hhit, rfl⟩ := Option.map_eq_some_iff.1 h
      exact ⟨hit.1, .inr (Registry.mem_of_matchIn? hhit)⟩

end Job

end DeployPlan
