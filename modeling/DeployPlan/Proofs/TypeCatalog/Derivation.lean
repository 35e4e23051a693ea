import DeployPlan.TypeCatalog
import Mathlib.Data.List.Nodup
import Mathlib.Data.List.Perm.Subperm
import Mathlib.Logic.Relation

/-!
# Derivations of types

The definition of a type that counts is the latest one of an archive among the dependencies, else
the latest one. A type extends the parent that this definition names. Climbing from a type follows
these steps to their end, and is refused exactly when they come back to a name.
-/
namespace DeployPlan

/-- A definition comes from an archive among the dependencies. -/
def TypeDefinition.ServedBy (d : TypeDefinition) (dependencies : List Coordinates) : Prop :=
  ∃ archive ∈ dependencies, d.archive = some archive

namespace TypeCatalog

/-- A definition that holds, after which none holds. -/
def IsLatest (definitions : List TypeDefinition) (holds : TypeDefinition → Prop)
    (d : TypeDefinition) : Prop :=
  ∃ earlier later, definitions = earlier ++ d :: later ∧ holds d ∧ ∀ e ∈ later, ¬ holds e

/-- The definition of a name that counts: the latest one from an archive among the dependencies, or
the latest one at all when there is none from such an archive. -/
def Selects (c : TypeCatalog) (dependencies : List Coordinates) (name : String)
    (d : TypeDefinition) : Prop :=
  IsLatest c.definitions (fun e => e.name = name ∧ e.ServedBy dependencies) d ∨
    (∀ e ∈ c.definitions, e.name = name → ¬ e.ServedBy dependencies) ∧
      IsLatest c.definitions (fun e => e.name = name) d

/-- The definition of a type that counts names a parent. -/
def Extends (c : TypeCatalog) (dependencies : List Coordinates) (name parent : String) : Prop :=
  ∃ d, c.Selects dependencies name d ∧ d.parent = some parent

/-- The chain of parents from a type comes back to a name that it met. -/
def Revisits (c : TypeCatalog) (dependencies : List Coordinates) (name : String) : Prop :=
  ∃ x, Relation.ReflTransGen (c.Extends dependencies) name x ∧
    Relation.TransGen (c.Extends dependencies) x x

/-- The chain from a type that ends, at a type without a definition or without a parent: the
definitions on it and the names of the parents, both from the type up. -/
inductive Derivation (c : TypeCatalog) (dependencies : List Coordinates) :
    String → List TypeDefinition → List String → Prop where
  | unindexed {name : String} (h : ∀ d ∈ c.definitions, d.name ≠ name) :
    Derivation c dependencies name [] []
  | top {name : String} {d : TypeDefinition} (h : c.Selects dependencies name d)
    (hp : d.parent = none) : Derivation c dependencies name [d] []
  | step {name parent : String} {d : TypeDefinition} {ds : List TypeDefinition}
    {parents : List String} (h : c.Selects dependencies name d) (hp : d.parent = some parent)
    (hds : Derivation c dependencies parent ds parents) :
    Derivation c dependencies name (d :: ds) (parent :: parents)

variable {c : TypeCatalog} {dependencies : List Coordinates} {name parent x : String}
  {d : TypeDefinition} {ds : List TypeDefinition} {parents : List String}

theorem find?_reverse_eq_some_iff {definitions : List TypeDefinition} {p : TypeDefinition → Bool} :
    definitions.reverse.find? p = some d ↔ IsLatest definitions (fun e => p e = true) d := by
  rw [List.find?_eq_some_iff_append]
  constructor
  · rintro ⟨hp, later, earlier, hsplit, hlater⟩
    refine ⟨earlier.reverse, later.reverse, ?_, hp, fun e he => ?_⟩
    · have hrev := congrArg List.reverse hsplit
      simpa using hrev
    · simpa using hlater e (List.mem_reverse.1 he)
  · rintro ⟨earlier, later, rfl, hp, hlater⟩
    refine ⟨hp, later.reverse, earlier.reverse, by simp, fun e he => ?_⟩
    simpa using hlater e (List.mem_reverse.1 he)

/-- A definition is served by the dependencies, decided. -/
def servedBy (dependencies : List Coordinates) (d : TypeDefinition) : Bool :=
  match d.archive with
  | some archive => dependencies.contains archive
  | none => false

theorem servedBy_iff : servedBy dependencies d = true ↔ d.ServedBy dependencies := by
  unfold servedBy TypeDefinition.ServedBy
  cases d.archive <;> simp

theorem select?_eq : c.select? dependencies name =
    (c.definitions.reverse.find? fun e => decide (e.name = name) && servedBy dependencies e).or
      (c.definitions.reverse.find? fun e => decide (e.name = name)) := by
  simp only [select?, ← List.filter_reverse, List.head?_filter, List.find?_filter]
  congr 2
  funext e
  rw [Bool.eq_iff_iff, Bool.and_eq_true, decide_eq_true_eq]
  exact Iff.rfl

theorem select?_eq_some_iff : c.select? dependencies name = some d ↔
    c.Selects dependencies name d := by
  have hserved : (c.definitions.reverse.find? fun e =>
      decide (e.name = name) && servedBy dependencies e) = some d ↔
      IsLatest c.definitions (fun e => e.name = name ∧ e.ServedBy dependencies) d := by
    rw [find?_reverse_eq_some_iff]
    simp only [Bool.and_eq_true, decide_eq_true_eq, servedBy_iff]
  have hnone : (c.definitions.reverse.find? fun e =>
      decide (e.name = name) && servedBy dependencies e) = none ↔
      ∀ e ∈ c.definitions, e.name = name → ¬ e.ServedBy dependencies := by
    simp [servedBy_iff]
  have hany : (c.definitions.reverse.find? fun e => decide (e.name = name)) = some d ↔
      IsLatest c.definitions (fun e => e.name = name) d := by
    rw [find?_reverse_eq_some_iff]
    simp only [decide_eq_true_eq]
  rw [select?_eq, Option.or_eq_some_iff, hserved, hnone, hany, Selects]

/-- A type without a definition that counts has no definition. -/
theorem select?_eq_none_iff : c.select? dependencies name = none ↔
    ∀ d ∈ c.definitions, d.name ≠ name := by
  rw [select?_eq, Option.or_eq_none_iff]
  constructor
  · rintro ⟨-, h⟩
    simpa using h
  · intro h
    constructor <;> simpa using fun e he hname => absurd hname (h e he)

/-- Which definition counts depends on the set of dependencies only. -/
theorem select?_congr {others : List Coordinates}
    (h : ∀ archive, archive ∈ dependencies ↔ archive ∈ others) :
    c.select? dependencies name = c.select? others name := by
  have hserved (d : TypeDefinition) : servedBy dependencies d = servedBy others d := by
    rw [Bool.eq_iff_iff, servedBy_iff, servedBy_iff]
    exact exists_congr fun archive => and_congr_left fun _ => h archive
  simp only [select?_eq, hserved]

/-- What climbing finds depends on the set of dependencies only. -/
theorem climb_congr {others : List Coordinates}
    (h : ∀ archive, archive ∈ dependencies ↔ archive ∈ others) (n : Nat) (seen : List String)
    (name : String) : c.climb dependencies n seen name = c.climb others n seen name := by
  induction n generalizing seen name with
  | zero => rfl
  | succ n ih => simp only [climb, select?_congr h, ih]

theorem mem_names_of_selects (h : c.Selects dependencies name d) :
    name ∈ c.definitions.map (·.name) := by
  rcases h with ⟨earlier, later, hsplit, ⟨rfl, -⟩, -⟩ | ⟨-, earlier, later, hsplit, rfl, -⟩ <;>
    simp [hsplit]

theorem Extends.unique {other : String} (h : c.Extends dependencies name parent)
    (h' : c.Extends dependencies name other) : parent = other := by
  obtain ⟨d, hd, hp⟩ := h
  obtain ⟨e, he, hq⟩ := h'
  rw [← select?_eq_some_iff] at hd he
  rw [hd] at he
  cases he
  rw [hp] at hq
  exact Option.some.inj hq

theorem Revisits.of_extends (h : c.Extends dependencies name parent)
    (hr : c.Revisits dependencies parent) : c.Revisits dependencies name := by
  obtain ⟨x, hx, hcycle⟩ := hr
  exact ⟨x, .head h hx, hcycle⟩

/-- When a chain comes back, it comes back from the parent on as well. -/
theorem Revisits.above (h : c.Extends dependencies name parent)
    (hr : c.Revisits dependencies name) : c.Revisits dependencies parent := by
  obtain ⟨x, hx, hcycle⟩ := hr
  rcases Relation.ReflTransGen.cases_head hx with rfl | ⟨next, hnext, hrest⟩
  · obtain ⟨next, hnext, hback⟩ := Relation.TransGen.head'_iff.1 hcycle
    obtain rfl := h.unique hnext
    exact ⟨name, hback, hcycle⟩
  · obtain rfl := h.unique hnext
    exact ⟨x, hrest, hcycle⟩

/-- A type that extends none starts no chain that comes back. -/
theorem not_revisits_of_not_extends (h : ∀ parent, ¬ c.Extends dependencies name parent) :
    ¬ c.Revisits dependencies name := by
  rintro ⟨x, hx, hcycle⟩
  rcases Relation.ReflTransGen.cases_head hx with rfl | ⟨next, hnext, -⟩
  · obtain ⟨next, hnext, -⟩ := Relation.TransGen.head'_iff.1 hcycle
    exact h next hnext
  · exact h next hnext

theorem Derivation.not_revisits (h : c.Derivation dependencies name ds parents) :
    ¬ c.Revisits dependencies name := by
  induction h with
  | unindexed hname =>
    refine not_revisits_of_not_extends fun parent ⟨d, hd, _⟩ => ?_
    obtain ⟨e, he, rfl⟩ := List.mem_map.1 (mem_names_of_selects hd)
    exact hname e he rfl
  | top hd hp =>
    refine not_revisits_of_not_extends fun parent ⟨e, he, hq⟩ => ?_
    rw [← select?_eq_some_iff] at hd he
    rw [hd] at he
    cases he
    rw [hp] at hq
    cases hq
  | step hd hp _ ih => exact fun hr => ih (hr.above ⟨_, hd, hp⟩)

theorem Derivation.unique {ds' : List TypeDefinition} {parents' : List String}
    (h : c.Derivation dependencies name ds parents)
    (h' : c.Derivation dependencies name ds' parents') : ds = ds' ∧ parents = parents' := by
  induction h generalizing ds' parents' with
  | unindexed hname =>
    cases h' with
    | unindexed _ => exact ⟨rfl, rfl⟩
    | top hd _ | step hd _ _ =>
      rw [← select?_eq_some_iff, select?_eq_none_iff.2 hname] at hd
      cases hd
  | top hd hp =>
    rw [← select?_eq_some_iff] at hd
    cases h' with
    | unindexed hname =>
      rw [select?_eq_none_iff.2 hname] at hd
      cases hd
    | top hd' _ =>
      rw [← select?_eq_some_iff, hd] at hd'
      cases hd'
      exact ⟨rfl, rfl⟩
    | step hd' hp' _ =>
      rw [← select?_eq_some_iff, hd] at hd'
      cases hd'
      rw [hp] at hp'
      cases hp'
  | step hd hp _ ih =>
    rw [← select?_eq_some_iff] at hd
    cases h' with
    | unindexed hname =>
      rw [select?_eq_none_iff.2 hname] at hd
      cases hd
    | top hd' hp' =>
      rw [← select?_eq_some_iff, hd] at hd'
      cases hd'
      rw [hp] at hp'
      cases hp'
    | step hd' hp' hrest =>
      rw [← select?_eq_some_iff, hd] at hd'
      cases hd'
      rw [hp] at hp'
      cases hp'
      obtain ⟨rfl, rfl⟩ := ih hrest
      exact ⟨rfl, rfl⟩

/-- A climb on its way: the names met are different, all of them but the one where it stands have
definitions, and all of them lead there. -/
structure Climb (c : TypeCatalog) (dependencies : List Coordinates) (seen : List String)
    (name : String) : Prop where
  nodup : seen.Nodup
  indexed : ∀ x ∈ seen, x = name ∨ x ∈ c.definitions.map (·.name)
  leads : ∀ x ∈ seen, Relation.ReflTransGen (c.Extends dependencies) x name

theorem Climb.start (c : TypeCatalog) (dependencies : List Coordinates) (name : String) :
    c.Climb dependencies [name] name where
  nodup := List.nodup_singleton name
  indexed x hx := .inl (List.mem_singleton.1 hx)
  leads x hx := by
    rw [List.mem_singleton.1 hx]

theorem Climb.step {seen : List String} (h : c.Climb dependencies seen name)
    (hd : c.Selects dependencies name d) (hp : d.parent = some parent) (hnew : parent ∉ seen) :
    c.Climb dependencies (seen ++ [parent]) parent where
  nodup := by
    rw [List.nodup_append]
    refine ⟨h.nodup, List.nodup_singleton parent, fun x hx y hy => ?_⟩
    rw [List.mem_singleton.1 hy]
    rintro rfl
    exact hnew hx
  indexed x hx := by
    rcases List.mem_append.1 hx with hx | hx
    · rcases h.indexed x hx with rfl | hx
      · exact .inr (mem_names_of_selects hd)
      · exact .inr hx
    · exact .inl (List.mem_singleton.1 hx)
  leads x hx := by
    rcases List.mem_append.1 hx with hx | hx
    · exact (h.leads x hx).tail ⟨d, hd, hp⟩
    · rw [List.mem_singleton.1 hx]

/-- A climb meets at most one name more than there are definitions. -/
theorem Climb.length_le {seen : List String} (h : c.Climb dependencies seen name) :
    seen.length ≤ c.definitions.length + 1 := by
  have hsub : seen ⊆ name :: c.definitions.map (·.name) := fun x hx =>
    List.mem_cons.2 (h.indexed x hx)
  simpa using (h.nodup.subperm hsub).length_le

/-- A climb that succeeds went along the whole chain. -/
theorem Climb.derivation {seen : List String} {n : Nat} (h : c.Climb dependencies seen name)
    (hfuel : c.definitions.length + 1 < seen.length + n)
    (hc : c.climb dependencies n seen name = .ok (ds, parents)) :
    c.Derivation dependencies name ds parents := by
  induction n generalizing seen name ds parents with
  | zero =>
    have := h.length_le
    omega
  | succ n ih =>
    rw [climb] at hc
    cases hd : c.select? dependencies name with
    | none =>
      rw [hd] at hc
      cases hc
      exact .unindexed (select?_eq_none_iff.1 hd)
    | some d =>
      simp only [hd] at hc
      rw [select?_eq_some_iff] at hd
      cases hp : d.parent with
      | none =>
        simp only [hp] at hc
        cases hc
        exact .top hd hp
      | some parent =>
        simp only [hp] at hc
        split at hc
        · cases hc
        · next hnew =>
          have hnew' : parent ∉ seen := by simpa using hnew
          split at hc
          · cases hc
          · next ds' parents' hrest =>
            cases hc
            exact .step hd hp (ih (h.step hd hp hnew') (by simp; omega) hrest)

/-- A climb that is refused came back to a name. -/
theorem Climb.revisits {seen met : List String} {n : Nat} (h : c.Climb dependencies seen name)
    (hc : c.climb dependencies n seen name = .error met) : c.Revisits dependencies name := by
  induction n generalizing seen name met with
  | zero => cases hc
  | succ n ih =>
    rw [climb] at hc
    cases hd : c.select? dependencies name with
    | none =>
      rw [hd] at hc
      cases hc
    | some d =>
      simp only [hd] at hc
      rw [select?_eq_some_iff] at hd
      cases hp : d.parent with
      | none =>
        simp only [hp] at hc
        cases hc
      | some parent =>
        have hext : c.Extends dependencies name parent := ⟨d, hd, hp⟩
        simp only [hp] at hc
        split at hc
        · next hseen =>
          have hback := h.leads parent (by simpa using hseen)
          exact ⟨parent, .single hext, .tail' hback hext⟩
        · next hnew =>
          split at hc
          · next met' hrest =>
            exact .of_extends hext (ih (h.step hd hp (by simpa using hnew)) hrest)
          · cases hc

/-- Climbing from a type is refused exactly when its chain comes back to a name. -/
theorem climb_eq_error_iff : (∃ met,
    c.climb dependencies (c.definitions.length + 1) [name] name = .error met) ↔
      c.Revisits dependencies name := by
  constructor
  · rintro ⟨met, hmet⟩
    exact (Climb.start c dependencies name).revisits hmet
  · intro hr
    cases hc : c.climb dependencies (c.definitions.length + 1) [name] name with
    | error met => exact ⟨met, rfl⟩
    | ok found =>
      exact absurd hr ((Climb.start c dependencies name).derivation (by simp) hc).not_revisits

/-- Climbing from a type finds the chain of its parents exactly when that ends. -/
theorem climb_eq_ok_iff :
    c.climb dependencies (c.definitions.length + 1) [name] name = .ok (ds, parents) ↔
      c.Derivation dependencies name ds parents := by
  constructor
  · intro hc
    exact (Climb.start c dependencies name).derivation (by simp) hc
  · intro h
    cases hc : c.climb dependencies (c.definitions.length + 1) [name] name with
    | error met => exact absurd (climb_eq_error_iff.1 ⟨met, hc⟩) h.not_revisits
    | ok found =>
      have hchain := (Climb.start c dependencies name).derivation (by simp) hc
      obtain ⟨rfl, rfl⟩ := h.unique hchain
      rfl

end TypeCatalog

end DeployPlan
