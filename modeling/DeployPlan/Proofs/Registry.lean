import DeployPlan.Proofs.Overlay
import DeployPlan.Registry

/-!
# Look-ups in a registry

A look-up in a table finds the entry of a name, or when it has none that of the one name it is bound
to. The catalog is asked for a type in its version before the type.
-/
namespace DeployPlan

namespace Registry

section

variable {α : Type} {table : NameMap α} {bindings : NameMap String} {name matched : String}
  {entry : α}

/-- A table has an entry for a name: its own, or when it has none that of the name it is bound to.
-/
inductive Finds (table : NameMap α) (bindings : NameMap String) (name : String) :
    String → α → Prop
  | direct {entry : α} (present : table[name]? = some entry) : Finds table bindings name name entry
  | bound {target : String} {entry : α} (absent : table[name]? = none)
      (binding : bindings[name]? = some target) (present : table[target]? = some entry) :
      Finds table bindings name target entry

theorem matchIn?_eq_some_iff : matchIn? table bindings name = some (matched, entry) ↔
    Finds table bindings name matched entry := by
  unfold matchIn?
  constructor
  · intro h
    split at h
    · next present =>
      cases h
      exact .direct present
    · next absent =>
      split at h
      · cases h
      · next target binding =>
        obtain ⟨found, present, heq⟩ := Option.map_eq_some_iff.1 h
        cases heq
        exact .bound absent binding present
  · intro h
    cases h with
    | direct present => rw [present]
    | bound absent binding present => simp only [absent, binding, present, Option.map_some]

theorem mem_of_matchIn? (h : matchIn? table bindings name = some (matched, entry)) :
    table[matched]? = some entry := by
  cases matchIn?_eq_some_iff.1 h with
  | direct present => exact present
  | bound _ _ present => exact present

/-- A look-up answers with the first of a name and the one it is bound to that the table has. -/
theorem matchIn?_eq_findSome? : matchIn? table bindings name =
    (name :: bindings[name]?.toList).findSome? fun tried => table[tried]?.map (tried, ·) := by
  unfold matchIn?
  rw [List.findSome?_cons]
  cases table[name]? with
  | some entry => rfl
  | none =>
    cases bindings[name]? with
    | none => rfl
    | some target =>
      simp only [Option.map_none, Option.toList_some, List.findSome?_cons, List.findSome?_nil]
      cases table[target]? <;> rfl

end

section

variable {r : Registry} {typeName matched : String} {version : Option String} {f : Factory}

/-- A version that is empty counts like none. -/
theorem findCatalog?_eq_or (r : Registry) (typeName : String) (version : Option String) :
    r.findCatalog? typeName version =
      ((version.filter (· ≠ "")).bind fun v =>
        matchIn? r.catalog r.bindings s!"{typeName}:{v}").or
          (matchIn? r.catalog r.bindings typeName) := by
  cases version with
  | none => rfl
  | some v =>
    by_cases hempty : v = ""
    · subst hempty
      rfl
    · simp only [findCatalog?, Option.filter, hempty, ne_eq, not_false_eq_true,
        decide_true, if_true, Option.bind_some]
      cases matchIn? r.catalog r.bindings s!"{typeName}:{v}" <;> rfl

theorem mem_of_findCatalog? (h : r.findCatalog? typeName version = some (matched, f)) :
    r.catalog[matched]? = some f := by
  rw [findCatalog?_eq_or] at h
  rcases Option.or_eq_some_iff.1 h with hversioned | ⟨-, hplain⟩
  · obtain ⟨v, -, hmatch⟩ := Option.bind_eq_some_iff.1 hversioned
    exact mem_of_matchIn? hmatch
  · exact mem_of_matchIn? hplain

end

end Registry

end DeployPlan
