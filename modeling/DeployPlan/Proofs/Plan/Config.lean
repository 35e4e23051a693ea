import DeployPlan.Build.Values
import DeployPlan.Proofs.Overlay
import DeployPlan.Proofs.Plan.Identity

/-!
# Config keys

Values that are put under a config key are joined in turn. Where they go is settled when a plan
starts: a key that its implementation declares or has set is typed config, and any other passes
through. No value that is put changes that, so no key is ever in both maps.
-/
namespace DeployPlan

/-- Values joined in turn, the first one being joined to nothing. -/
def PlanValue.joinAll? : List PlanValue → Option PlanValue
  | [] => none
  | v :: vs => some (vs.foldl join v)

namespace PlanValue

theorem joinAll?_eq_none_iff {vs : List PlanValue} : joinAll? vs = none ↔ vs = [] := by
  cases vs <;> simp [joinAll?]

/-- A further value is joined to what the values before it make together. -/
theorem joinAll?_concat (vs : List PlanValue) (v : PlanValue) :
    joinAll? (vs ++ [v]) = some (((joinAll? vs).map (·.join v)).getD v) := by
  cases vs with
  | nil => rfl
  | cons first vs => simp [joinAll?]

theorem joinAll?_toList (v : Option PlanValue) : joinAll? v.toList = v := by
  cases v <;> rfl

end PlanValue

namespace Entries

variable {α : Type} {name : String}

/-- Among entries of distinct names there is one value under a name at most. -/
theorem valuesUnder_filterMap {names : List String} (h : names.Nodup) (f : String → Option α) :
    valuesUnder name (names.filterMap fun other => (f other).map (other, ·)) =
      if name ∈ names then (f name).toList else [] := by
  induction names with
  | nil => rfl
  | cons first names ih =>
    obtain ⟨hnew, h⟩ := List.nodup_cons.1 h
    have hrest := ih h
    cases hf : f first with
    | none =>
      rw [List.filterMap_cons_none (by rw [hf, Option.map_none]), hrest]
      by_cases hname : name = first
      · simp [hname, hnew, hf]
      · simp [hname]
    | some v =>
      simp only [List.filterMap_cons, hf, Option.map_some, valuesUnder_cons, hrest]
      by_cases hname : name = first
      · simp [hname, hnew, hf]
      · simp [hname, Ne.symm hname]

end Entries

/-- The implementation declares a key or has set it. -/
def Implementation.types (i : Implementation) (key : String) : Bool :=
  i.configKeys.contains key || i.config.contains key

/-- The entries that outcomes make; those that are unresolved make none. -/
def resolvedEntries (outcomes : List (String × Resolution)) : List (String × PlanValue) :=
  outcomes.filterMap fun o => (PlanValue.ofResolution? o.2).map (o.1, ·)

namespace NodePlan

/-- What a plan has under property and config keys, and how it tells config keys apart. -/
def values (p : NodePlan) :
    NameMap PlanValue × NameMap PlanValue × NameMap PlanValue × List String :=
  (p.properties, p.config, p.passthrough, p.configKeys)

/-- What a plan has under a key: a property of that name, if there is one, and as config some values
joined in turn, in the map that the key belongs to. -/
structure Holds (p : NodePlan) (key : String) (typed : Bool) (property : Option PlanValue)
    (vs : List PlanValue) : Prop where
  isTyped : p.isTyped key = typed
  property : p.properties[key]? = property
  config : p.config[key]? = if typed then PlanValue.joinAll? vs else none
  passthrough : p.passthrough[key]? = if typed then none else PlanValue.joinAll? vs

variable {p p' : NodePlan} {key : String} {typed : Bool} {property : Option PlanValue}
  {vs : List PlanValue}

theorem values_setIdle (noop : String) (p : NodePlan) : (p.setIdle noop).values = p.values := rfl

theorem values_setCommands (cs : List Contribution) (p : NodePlan) :
    (p.setCommands cs).values = p.values :=
  setCommands_keeps (fun _ _ _ => rfl) cs p

theorem getElem?_joinInto (m : NameMap PlanValue) (k : String) (v : PlanValue) (key : String) :
    (joinInto m k v)[key]? =
      if k = key then some ((m[k]?.map (·.join v)).getD v) else m[key]? := by
  rw [joinInto, Std.ExtTreeMap.getElem?_insert]
  cases m[k]? <;> simp

theorem isTyped_eq (p : NodePlan) (key : String) :
    p.isTyped key = (p.configKeys.contains key || p.config[key]?.isSome) := by
  rw [isTyped, Std.ExtTreeMap.contains_eq_isSome_getElem?]

/-- Where a key belongs is not changed by what is put under any key. -/
theorem isTyped_putConfig (p : NodePlan) (k : String) (v : PlanValue) (key : String) :
    (p.putConfig k v).isTyped key = p.isTyped key := by
  unfold putConfig
  split
  · next htyped =>
    by_cases h : k = key
    · subst h
      rw [htyped, isTyped_eq, getElem?_joinInto, if_pos rfl, Option.isSome_some, Bool.or_true]
    · rw [isTyped_eq, isTyped_eq, getElem?_joinInto, if_neg h]
  · rfl

theorem properties_putConfig (p : NodePlan) (k : String) (v : PlanValue) :
    (p.putConfig k v).properties = p.properties := by
  unfold putConfig
  split <;> rfl

namespace Holds

theorem congr (h : p.Holds key typed property vs) (hvalues : p'.values = p.values) :
    p'.Holds key typed property vs := by
  obtain ⟨hproperties, hconfig, hpassthrough, hkeys⟩ : p'.properties = p.properties ∧
      p'.config = p.config ∧ p'.passthrough = p.passthrough ∧ p'.configKeys = p.configKeys := by
    simpa [values] using hvalues
  constructor
  case isTyped => rw [NodePlan.isTyped, hconfig, hkeys]; exact h.isTyped
  case property => rw [hproperties, h.property]
  case config => rw [hconfig, h.config]
  case passthrough => rw [hpassthrough, h.passthrough]

/-- A plan starts with what its implementation has set. -/
theorem start (kind : ImplementationKind) (i : Implementation) (key : String) :
    (NodePlan.start kind i).Holds key (i.types key) none i.config[key]?.toList := by
  have hnone (h : ¬ i.types key = true) : i.config[key]? = none := by
    rw [Implementation.types, Std.ExtTreeMap.contains_eq_isSome_getElem?, Bool.or_eq_true,
      not_or] at h
    simpa using h.2
  constructor
  case isTyped => rfl
  case property => exact Std.ExtTreeMap.getElem?_empty
  case config =>
    rw [PlanValue.joinAll?_toList]
    split
    · rfl
    · next h => exact hnone h
  case passthrough =>
    rw [PlanValue.joinAll?_toList]
    split
    · exact Std.ExtTreeMap.getElem?_empty
    · next h => exact Std.ExtTreeMap.getElem?_empty.trans (hnone h).symm

/-- A value that is put under a key is joined to those that are there. -/
theorem putConfig (h : p.Holds key typed property vs) (k : String) (v : PlanValue) :
    (p.putConfig k v).Holds key typed property (if k = key then vs ++ [v] else vs) := by
  have htyped : (p.putConfig k v).isTyped key = typed := by rw [isTyped_putConfig, h.isTyped]
  have hproperty : (p.putConfig k v).properties[key]? = property := by
    rw [properties_putConfig, h.property]
  by_cases hk : k = key
  · subst hk
    rw [if_pos rfl]
    -- the value goes to the one map and leaves the other without the key
    cases typed with
    | true =>
      have hput : p.putConfig k v = { p with config := joinInto p.config k v } :=
        if_pos h.isTyped
      refine ⟨htyped, hproperty, ?_, ?_⟩
      · have hconfig := h.config
        rw [if_pos rfl] at hconfig ⊢
        rw [hput, getElem?_joinInto, if_pos rfl, hconfig, PlanValue.joinAll?_concat]
      · rw [hput]
        exact h.passthrough
    | false =>
      have hput : p.putConfig k v = { p with passthrough := joinInto p.passthrough k v } :=
        if_neg (by rw [h.isTyped]; exact Bool.false_ne_true)
      refine ⟨htyped, hproperty, ?_, ?_⟩
      · rw [hput]
        exact h.config
      · have hpassthrough := h.passthrough
        rw [if_neg Bool.false_ne_true] at hpassthrough ⊢
        rw [hput, getElem?_joinInto, if_pos rfl, hpassthrough, PlanValue.joinAll?_concat]
  · rw [if_neg hk]
    refine ⟨htyped, hproperty, ?_, ?_⟩
    · rw [← h.config]
      unfold NodePlan.putConfig
      split
      · rw [getElem?_joinInto, if_neg hk]
      · rfl
    · rw [← h.passthrough]
      unfold NodePlan.putConfig
      split
      · rfl
      · rw [getElem?_joinInto, if_neg hk]

/-- Entries that are put in turn are joined in that order. -/
theorem putEntries (h : p.Holds key typed property vs) (es : List (String × PlanValue)) :
    (p.putEntries es).Holds key typed property (vs ++ Entries.valuesUnder key es) := by
  unfold NodePlan.putEntries
  induction es generalizing p vs with
  | nil => simpa using h
  | cons e es ih =>
    obtain ⟨k, v⟩ := e
    have hrest := ih (h.putConfig k v)
    rw [List.foldl_cons, Entries.valuesUnder_cons]
    by_cases hk : k = key
    · simpa [hk] using hrest
    · simpa [hk] using hrest

theorem putProperty (h : p.Holds key typed property vs) (k : String) (v : PlanValue) :
    (p.putProperty k v).Holds key typed (if k = key then some v else property)
      (if k = key then vs ++ [v] else vs) := by
  refine Holds.putConfig (p := { p with properties := p.properties.insert k v })
    ⟨h.isTyped, ?_, h.config, h.passthrough⟩ k v
  rw [Std.ExtTreeMap.getElem?_insert, ← h.property]
  by_cases hk : k = key <;> simp [hk]

/-- Outcomes become properties and config, unless they are unresolved; of several under a name the
last one is the property. -/
theorem putProperties (h : p.Holds key typed property vs) (outcomes : List (String × Resolution)) :
    (p.putProperties outcomes).Holds key typed
      ((Entries.valuesUnder key (resolvedEntries outcomes)).getLast?.or property)
      (vs ++ Entries.valuesUnder key (resolvedEntries outcomes)) := by
  unfold NodePlan.putProperties resolvedEntries
  induction outcomes generalizing p property vs with
  | nil => simpa using h
  | cons o outcomes ih =>
    obtain ⟨k, outcome⟩ := o
    cases hv : PlanValue.ofResolution? outcome with
    | none =>
      simp only [List.foldl_cons, hv, List.filterMap_cons, Option.map_none]
      exact ih h
    | some v =>
      have hrest := ih (h.putProperty k v)
      simp only [List.foldl_cons, hv, List.filterMap_cons, Option.map_some,
        Entries.valuesUnder_cons, List.getLast?_append, Option.or_assoc]
      by_cases hk : k = key
      · simpa [hk] using hrest
      · simpa [hk] using hrest

/-- The config that counts is what was put, joined in turn. -/
theorem effectiveConfig (h : p.Holds key typed property vs) :
    p.effectiveConfig[key]? = PlanValue.joinAll? vs := by
  rw [NodePlan.effectiveConfig, NameMap.getElem?_overlay, h.config, h.passthrough]
  split <;> simp

theorem disjoint (h : p.Holds key typed property vs) :
    p.config[key]? = none ∨ p.passthrough[key]? = none := by
  cases typed with
  | true => exact .inr h.passthrough
  | false => exact .inl h.config

end Holds

end NodePlan

end DeployPlan
