import DeployPlan.Proofs.Related
import DeployPlan.Proofs.TypeCatalog.Aliases

/-!
# Types up to aliases

Two catalogs are the same up to aliases when one comes from the other by replacing aliases of
lifecycle interfaces. Climbing from a type goes the same way in both. The profiles that are found
agree but for interfaces; of these the operations of the lifecycle agree when the same definitions
count, and all others do anyway.
-/
namespace DeployPlan

variable {aliases : List String} {is is' : List Interface}

/-- Interfaces that are the same, but for the name if it is an alias of the lifecycle. -/
def Interface.SameUpToAlias (i i' : Interface) : Prop :=
  i'.operations = i.operations ∧
    (i'.name = i.name ∨ i.name ∈ nodeLifecycle ∧ i'.name ∈ nodeLifecycle)

instance (i i' : Interface) : Decidable (i.SameUpToAlias i') := inferInstanceAs (Decidable (_ ∧ _))

theorem Interface.SameUpToAlias.mem_iff {i i' : Interface} (h : i.SameUpToAlias i') :
    i'.name ∈ nodeLifecycle ↔ i.name ∈ nodeLifecycle := by
  obtain ⟨-, heq | ⟨hi, hi'⟩⟩ := h
  · rw [heq]
  · exact iff_of_true hi' hi

theorem Interface.SameUpToAlias.name_eq_iff {i i' : Interface} (h : i.SameUpToAlias i')
    {a : String} (ha : a ∉ nodeLifecycle) : i'.name = a ↔ i.name = a := by
  obtain ⟨-, heq | ⟨hi, hi'⟩⟩ := h
  · rw [heq]
  · exact iff_of_false (fun heq => ha (heq ▸ hi')) fun heq => ha (heq ▸ hi)

/-- At most one of some interfaces is named by an alias of the lifecycle. -/
def OneLifecycle (is : List Interface) : Prop :=
  (is.filter (·.name ∈ nodeLifecycle)).length ≤ 1

instance (is : List Interface) : Decidable (OneLifecycle is) :=
  inferInstanceAs (Decidable (_ ≤ _))

/-- Where at most one interface is named by an alias of the lifecycle, it is the one found. -/
theorem OneLifecycle.findInterface?_eq (h : OneLifecycle is) :
    findInterface? nodeLifecycle is = is.find? (·.name ∈ nodeLifecycle) := by
  cases hj : is.find? (·.name ∈ nodeLifecycle) with
  | none =>
    refine List.findSome?_eq_none_iff.2 fun a ha => List.find?_eq_none.2 fun i hi hname => ?_
    have hfree := List.find?_eq_none.1 hj i hi
    rw [of_decide_eq_true hname] at hfree
    exact hfree (decide_eq_true ha)
  | some j =>
    have hname := List.find?_some hj
    have hjmem : j ∈ is.filter (·.name ∈ nodeLifecycle) :=
      List.mem_filter.2 ⟨List.mem_of_find?_eq_some hj, hname⟩
    cases hi : findInterface? nodeLifecycle is with
    | none =>
      have hnone := List.findSome?_eq_none_iff.1 hi j.name (of_decide_eq_true hname)
      exact absurd (decide_eq_true rfl)
        (List.find?_eq_none.1 hnone j (List.mem_of_find?_eq_some hj))
    | some i =>
      obtain ⟨a, ha, hfind⟩ := List.exists_of_findSome?_eq_some hi
      obtain rfl : i.name = a := by simpa using List.find?_some hfind
      have himem : i ∈ is.filter (·.name ∈ nodeLifecycle) :=
        List.mem_filter.2 ⟨List.mem_of_find?_eq_some hfind, decide_eq_true ha⟩
      obtain ⟨k, hk⟩ := List.length_eq_one_iff.1 (Nat.le_antisymm h (List.length_pos_of_mem hjmem))
      rw [hk, List.mem_singleton] at himem hjmem
      rw [himem, hjmem]

section

variable (h : List.Forall₂ Interface.SameUpToAlias is is')

include h

/-- Replacing the alias of the only lifecycle interface keeps the operations found. -/
theorem OneLifecycle.operationsUnder_eq (hone : OneLifecycle is) :
    operationsUnder nodeLifecycle is' = operationsUnder nodeLifecycle is := by
  have hone' : OneLifecycle is' := by
    have hlength := (List.rel_filter (p := (·.name ∈ nodeLifecycle)) (q := (·.name ∈ nodeLifecycle))
      (fun i i' hi => by simp [hi.mem_iff]) h).length_eq
    rw [OneLifecycle, ← hlength]
    exact hone
  rw [operationsUnder, operationsUnder, hone.findInterface?_eq, hone'.findInterface?_eq]
  rcases rel_cases (rel_find? h fun i i' hi => decide_eq_decide.2 hi.mem_iff) with
    ⟨hi, hi'⟩ | ⟨i, i', hi, hi', hsame⟩
  · rw [hi, hi']
  · rw [hi, hi', Option.elim_some, Option.elim_some, hsame.1]

/-- The other names stay. -/
theorem mem_names_of_other {a : String} (ha : a ∉ nodeLifecycle) :
    a ∈ is'.map (·.name) ↔ a ∈ is.map (·.name) := by
  induction h with
  | nil => rfl
  | cons hi _ ih =>
    rw [List.map_cons, List.map_cons, List.mem_cons, List.mem_cons, ih, eq_comm, hi.name_eq_iff ha,
      eq_comm]

theorem firstAlias?_of_other (hother : ∀ a ∈ aliases, a ∉ nodeLifecycle) :
    firstAlias? aliases is' = firstAlias? aliases is :=
  firstAlias?_congr fun a ha => mem_names_of_other h (hother a ha)

/-- The operations under other names stay. -/
theorem operationsUnder_of_other (hother : ∀ a ∈ aliases, a ∉ nodeLifecycle) :
    operationsUnder aliases is' = operationsUnder aliases is := by
  rw [operationsUnder_eq_elim, operationsUnder_eq_elim, firstAlias?_of_other h hother]
  cases hfirst : firstAlias? aliases is with
  | none => rfl
  | some a =>
    have ha : a ∉ nodeLifecycle := hother a (List.mem_of_find?_eq_some hfirst)
    simp only [Option.elim_some]
    clear hfirst
    induction h with
    | nil => rfl
    | cons hi _ ih =>
      rw [TypeCatalog.operationsUnder_cons, TypeCatalog.operationsUnder_cons, ih, hi.1,
        if_congr (hi.name_eq_iff ha) rfl rfl]

end

/-- Definitions that are the same up to the aliases of lifecycle interfaces. -/
structure TypeDefinition.SameUpToAliases (d d' : TypeDefinition) : Prop where
  interfaces : List.Forall₂ Interface.SameUpToAlias d.interfaces d'.interfaces
  rest : d' = { d with interfaces := d'.interfaces }

instance (d d' : TypeDefinition) : Decidable (d.SameUpToAliases d') :=
  decidable_of_iff (_ ∧ _) ⟨fun h => ⟨h.1, h.2⟩, fun h => ⟨h.interfaces, h.rest⟩⟩

namespace TypeDefinition.SameUpToAliases

variable {d d' : TypeDefinition} {ds ds' : List TypeDefinition}

theorem name_eq (h : d.SameUpToAliases d') : d'.name = d.name := by rw [h.rest]

theorem archive_eq (h : d.SameUpToAliases d') : d'.archive = d.archive := by rw [h.rest]

theorem parent_eq (h : d.SameUpToAliases d') : d'.parent = d.parent := by rw [h.rest]

/-- Of the lifecycle the same operations are counted if both definitions count or neither does. -/
theorem counted_lifecycle (h : d.SameUpToAliases d') (hone : OneLifecycle d.interfaces)
    (hcounts : d'.Counts nodeLifecycle ds' ↔ d.Counts nodeLifecycle ds) :
    d'.counted nodeLifecycle ds' = d.counted nodeLifecycle ds := by
  rw [counted, counted, hone.operationsUnder_eq h.interfaces, if_congr hcounts rfl rfl]

/-- Of other interfaces the same operations are counted. -/
theorem counted_of_other (h : d.SameUpToAliases d')
    (hds : List.Forall₂ TypeDefinition.SameUpToAliases ds ds')
    (hother : ∀ a ∈ aliases, a ∉ nodeLifecycle) :
    d'.counted aliases ds' = d.counted aliases ds := by
  have hall : List.Forall₂ Interface.SameUpToAlias (ds.flatMap (·.interfaces))
      (ds'.flatMap (·.interfaces)) := List.rel_flatMap hds fun _ _ hd => hd.interfaces
  have hcounts : d'.Counts aliases ds' ↔ d.Counts aliases ds := by
    simp only [Counts, firstAlias?_of_other h.interfaces hother, firstAlias?_of_other hall hother]
  rw [counted, counted, operationsUnder_of_other h.interfaces hother, if_congr hcounts rfl rfl]

end TypeDefinition.SameUpToAliases

/-- Profiles that are the same, but for the interfaces of the lifecycle. -/
structure TypeProfile.SameButLifecycle (p p' : TypeProfile) : Prop where
  rest : p' = { p with interfaces := p'.interfaces }
  isEmpty : p'.interfaces.isEmpty = p.interfaces.isEmpty
  operations : ∀ aliases : List String, (∀ a ∈ aliases, a ∉ nodeLifecycle) →
    operationsUnder aliases p'.interfaces = operationsUnder aliases p.interfaces

namespace TypeProfile.SameButLifecycle

variable {p p' : TypeProfile}

theorem refl (p : TypeProfile) : p.SameButLifecycle p := ⟨rfl, rfl, fun _ _ => rfl⟩

theorem properties (h : p.SameButLifecycle p') : p'.properties = p.properties := by rw [h.rest]

theorem isUndefined (h : p.SameButLifecycle p') : p'.isUndefined = p.isUndefined := by
  have hderived : p'.derivedFrom = p.derivedFrom := by rw [h.rest]
  rw [TypeProfile.isUndefined, TypeProfile.isUndefined, hderived, h.isEmpty, h.properties]

end TypeProfile.SameButLifecycle

namespace TypeCatalog

theorem isEmpty_overlayInterfaces (base later : List Interface) :
    (overlayInterfaces base later).isEmpty = (base.isEmpty && later.isEmpty) := by
  induction later generalizing base with
  | nil => rw [List.isEmpty_nil, Bool.and_true, overlayInterfaces, List.foldl_nil]
  | cons i later ih =>
    have hput : (overlayInterface i base).isEmpty = false := by
      cases base with
      | nil => rfl
      | cons j base =>
        rw [overlayInterface]
        split <;> rfl
    rw [overlayInterfaces, List.foldl_cons, ← overlayInterfaces, ih, hput, List.isEmpty_cons,
      Bool.false_and, Bool.and_false]

section

variable {ds ds' : List TypeDefinition}

/-- The definitions on two chains are the same up to aliases. -/
theorem sameButLifecycle_folded (h : List.Forall₂ TypeDefinition.SameUpToAliases ds ds')
    (hds : ∀ d ∈ ds, d.Distinct) (hds' : ∀ d ∈ ds', d.Distinct) (typeName : String)
    (parents : List String) :
    (folded typeName ds parents).SameButLifecycle (folded typeName ds' parents) where
  rest := by
    clear hds hds'
    induction h with
    | nil => rfl
    | cons hd _ ih => rw [folded_cons, folded_cons, ih, hd.rest]; rfl
  isEmpty := by
    clear hds hds'
    induction h with
    | nil => rfl
    | cons hd _ ih =>
      rw [folded_cons, folded_cons]
      refine (isEmpty_overlayInterfaces _ _).trans (.trans ?_ (isEmpty_overlayInterfaces _ _).symm)
      rw [ih, isEmpty_eq_of_forall₂ hd.interfaces]
  operations aliases hother := by
    rw [operationsUnder_folded hds, operationsUnder_folded hds',
      map_eq_of_forall₂ h fun d d' hd => hd.counted_of_other h hother]

/-- If the same definitions count, the profiles have the same operations of the lifecycle. -/
theorem lifecycle_folded (h : List.Forall₂ TypeDefinition.SameUpToAliases ds ds')
    (hds : ∀ d ∈ ds, d.Distinct) (hds' : ∀ d ∈ ds', d.Distinct)
    (hone : ∀ d ∈ ds, OneLifecycle d.interfaces)
    (hcounts : List.Forall₂ (fun d d' => d.Counts nodeLifecycle ds ↔ d'.Counts nodeLifecycle ds')
      ds ds') (typeName : String) (parents : List String) :
    operationsUnder nodeLifecycle (folded typeName ds' parents).interfaces =
      operationsUnder nodeLifecycle (folded typeName ds parents).interfaces := by
  have hcounted : List.Forall₂
      (fun d d' => d'.counted nodeLifecycle ds' = d.counted nodeLifecycle ds) ds ds' := by
    rw [List.forall₂_iff_zip] at h hcounts ⊢
    refine ⟨h.1, fun hmem => (h.2 hmem).counted_lifecycle (hone _ ?_) (hcounts.2 hmem).symm⟩
    exact (List.of_mem_zip hmem).1
  rw [operationsUnder_folded hds, operationsUnder_folded hds',
    map_eq_of_forall₂ hcounted fun _ _ heq => heq]

end

/-- Catalogs whose definitions are the same up to aliases, one by one. -/
def SameUpToAliases (c c' : TypeCatalog) : Prop :=
  List.Forall₂ TypeDefinition.SameUpToAliases c.definitions c'.definitions

instance (c c' : TypeCatalog) : Decidable (c.SameUpToAliases c') :=
  inferInstanceAs (Decidable (List.Forall₂ _ _ _))

variable {c c' : TypeCatalog} {dependencies : List Coordinates} {name : String}

/-- Definitions that count for a name are the same up to aliases. -/
theorem SameUpToAliases.select? (h : c.SameUpToAliases c') (dependencies : List Coordinates)
    (name : String) : Option.Rel TypeDefinition.SameUpToAliases (c.select? dependencies name)
      (c'.select? dependencies name) := by
  have hreverse : List.Forall₂ TypeDefinition.SameUpToAliases c.definitions.reverse
      c'.definitions.reverse := List.rel_reverse h
  rw [select?_eq, select?_eq]
  refine rel_or (rel_find? hreverse fun d d' hd => ?_) (rel_find? hreverse fun d d' hd => ?_)
  · rw [servedBy, servedBy, hd.name_eq, hd.archive_eq]
  · rw [hd.name_eq]

theorem SameUpToAliases.climb (h : c.SameUpToAliases c') (dependencies : List Coordinates) (n : Nat)
    (seen : List String) (name : String) :
    (∃ met, c.climb dependencies n seen name = .error met ∧
      c'.climb dependencies n seen name = .error met) ∨
    ∃ ds ds' parents, c.climb dependencies n seen name = .ok (ds, parents) ∧
      c'.climb dependencies n seen name = .ok (ds', parents) ∧
      List.Forall₂ TypeDefinition.SameUpToAliases ds ds' := by
  induction n generalizing seen name with
  | zero => exact .inr ⟨[], [], [], rfl, rfl, .nil⟩
  | succ n ih =>
    rw [TypeCatalog.climb, TypeCatalog.climb]
    rcases rel_cases (h.select? dependencies name) with ⟨hd, hd'⟩ | ⟨d, d', hd, hd', hsame⟩
    · rw [hd, hd']
      exact .inr ⟨[], [], [], rfl, rfl, .nil⟩
    · simp only [hd, hd', hsame.parent_eq]
      cases d.parent with
      | none => exact .inr ⟨[d], [d'], [], rfl, rfl, .cons hsame .nil⟩
      | some parent =>
        simp only
        split
        · exact .inl ⟨_, rfl, rfl⟩
        · rcases ih (seen ++ [parent]) parent with ⟨met, hm, hm'⟩ | ⟨ds, ds', names, hc, hc', hds⟩
          · simp only [hm, hm']
            exact .inl ⟨met, rfl, rfl⟩
          · simp only [hc, hc']
            exact .inr ⟨_, _, _, rfl, rfl, .cons hsame hds⟩

/-- A type is refused in both catalogs, or its chains in both are the same up to aliases. -/
theorem SameUpToAliases.lookup (h : c.SameUpToAliases c') (name : String)
    (dependencies : List Coordinates) :
    (∃ f, c.lookup name dependencies = .error f ∧ c'.lookup name dependencies = .error f) ∨
    ∃ ds ds' parents, c.Derivation dependencies name ds parents ∧
      c'.Derivation dependencies name ds' parents ∧
      List.Forall₂ TypeDefinition.SameUpToAliases ds ds' := by
  have hlength : c.definitions.length = c'.definitions.length := h.length_eq
  rcases h.climb dependencies (c.definitions.length + 1) [name] name with
    ⟨met, hm, hm'⟩ | ⟨ds, ds', parents, hc, hc', hds⟩
  · rw [TypeCatalog.lookup, TypeCatalog.lookup, ← hlength, hm, hm']
    exact .inl ⟨_, rfl, rfl⟩
  · rw [hlength] at hc'
    exact .inr ⟨ds, ds', parents, climb_eq_ok_iff.1 hc, climb_eq_ok_iff.1 hc', hds⟩

theorem SameUpToAliases.chains (h : c.SameUpToAliases c') {ds ds' : List TypeDefinition}
    {parents parents' : List String} (hd : c.Derivation dependencies name ds parents)
    (hd' : c'.Derivation dependencies name ds' parents') :
    parents = parents' ∧ List.Forall₂ TypeDefinition.SameUpToAliases ds ds' := by
  rcases h.lookup name dependencies with ⟨f, hf, -⟩ | ⟨es, es', names, he, he', hes⟩
  · rw [lookup_of_derivation hd] at hf
    cases hf
  · obtain ⟨rfl, rfl⟩ := hd.unique he
    obtain ⟨rfl, rfl⟩ := hd'.unique he'
    exact ⟨rfl, hes⟩

end TypeCatalog

end DeployPlan
