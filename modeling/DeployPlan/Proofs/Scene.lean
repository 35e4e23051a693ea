import DeployPlan.Proofs.Overlay
import DeployPlan.Scene

/-!
# Scenes from look-ups

The scene of a topology holds the profile of each type that the topology uses, once. It is refused
exactly when one of these types is, and with the reason given for a type.
-/
namespace DeployPlan

/-- Names with what they stand for. -/
theorem Entries.get?_map {α : Type} (f : String → α) (name : String) (names : List String) :
    get? name (names.map fun name => (name, f name)) =
      if name ∈ names then some (f name) else none := by
  induction names with
  | nil => rfl
  | cons other names ih =>
    rw [List.map_cons, get?, ih]
    by_cases heq : other = name
    · simp [heq]
    · simp [heq, Ne.symm heq]

namespace Scene

/-- The profile that is looked up for a type; a bare one if the look-up is refused. -/
def profileFor (lookup : TypeLookup) (dependencies : List Coordinates) (name : String) :
    TypeProfile :=
  (lookup name dependencies).toOption.getD (.bare name)

/-- The scene of a topology whose types are looked up. -/
def ofTypes (lookup : TypeLookup) (t : Topology) : Scene :=
  ⟨t, (usedTypes t).eraseDups.map fun name => (name, profileFor lookup t.dependencies name)⟩

variable {lookup : TypeLookup} {dependencies : List Coordinates} {names : List String}
  {known profiles : List (String × TypeProfile)} {log log' : Log} {f : Failure}

theorem gather_ok (h : gather lookup dependencies names known log = (.ok profiles, log')) :
    (∀ name ∈ names, name ∉ Entries.names known → ∃ p, lookup name dependencies = .ok p) ∧
    profiles = known ++ (names.filter (· ∉ Entries.names known)).eraseDups.map
      fun name => (name, profileFor lookup dependencies name) := by
  induction names generalizing known log with
  | nil =>
    cases h
    simp
  | cons name names ih =>
    simp only [gather, Entries.has_iff_mem_names] at h
    split at h
    · next hknown =>
      obtain ⟨hfound, heq⟩ := ih h
      refine ⟨List.forall_mem_cons.2 ⟨fun hnew => absurd hknown hnew, hfound⟩, ?_⟩
      rw [heq, List.filter_cons_of_neg (by simpa using hknown)]
    · next hnew =>
      split at h
      · cases h
      · next p hp =>
        obtain ⟨hfound, heq⟩ := ih h
        have hnames (x : String) : x ∈ Entries.names (known ++ [(name, p)]) ↔
            x = name ∨ x ∈ Entries.names known := by
          rw [Entries.names, List.map_append, List.mem_append, List.map_singleton,
            List.mem_singleton, or_comm, Entries.names]
        refine ⟨List.forall_mem_cons.2 ⟨fun _ => ⟨p, hp⟩, fun other hother hnot => ?_⟩, ?_⟩
        · by_cases hother' : other = name
          · exact ⟨p, hother' ▸ hp⟩
          · exact hfound other hother (by rw [hnames, not_or]; exact ⟨hother', hnot⟩)
        · have hprofile : profileFor lookup dependencies name = p := by
            rw [profileFor, hp]
            rfl
          rw [heq, eraseDups_filter_cons hnew hnames, List.map_cons, List.append_assoc,
            List.singleton_append, hprofile]

/-- A look-up that is refused is that of a type among those looked up. -/
theorem gather_error (h : gather lookup dependencies names known log = (.error f, log')) :
    ∃ name ∈ names, lookup name dependencies = .error f := by
  induction names generalizing known log with
  | nil => cases h
  | cons name names ih =>
    rw [gather] at h
    split at h
    · obtain ⟨other, hother, hf⟩ := ih h
      exact ⟨other, List.mem_cons_of_mem name hother, hf⟩
    · split at h
      · next g hg =>
        cases h
        exact ⟨name, List.mem_cons_self, hg⟩
      · obtain ⟨other, hother, hf⟩ := ih h
        exact ⟨other, List.mem_cons_of_mem name hother, hf⟩

variable {t : Topology} {s : Scene}

/-- The scene that is built holds what was looked up for the types of the topology. -/
theorem build_ok (h : build lookup t log = (.ok s, log')) : s = ofTypes lookup t ∧
    ∀ name ∈ usedTypes t, ∃ p, lookup name t.dependencies = .ok p := by
  unfold build at h
  split at h
  · cases h
  · next profiles log₁ hgather =>
    cases h
    obtain ⟨hfound, rfl⟩ := gather_ok hgather
    have hnone (name : String) : name ∉ Entries.names ([] : List (String × TypeProfile)) :=
      List.not_mem_nil
    refine ⟨?_, fun name hname => hfound name hname (hnone name)⟩
    rw [List.nil_append, List.filter_eq_self.2 fun name _ => decide_eq_true (hnone name), ofTypes]

theorem build_error (h : build lookup t log = (.error f, log')) :
    ∃ name ∈ usedTypes t, lookup name t.dependencies = .error f := by
  unfold build at h
  split at h
  · next f₁ log₁ hgather =>
    cases h
    exact gather_error hgather
  · cases h

theorem profile_ofTypes (lookup : TypeLookup) (t : Topology) (typeName : String) :
    (ofTypes lookup t).profile typeName =
      if typeName ∈ usedTypes t then profileFor lookup t.dependencies typeName
      else .bare typeName := by
  rw [profile, ofTypes, Entries.get?_map]
  by_cases hused : typeName ∈ usedTypes t <;> simp [hused]

end Scene

end DeployPlan
