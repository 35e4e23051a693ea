import DeployPlan.NameMap
import DeployPlan.TypeCatalog
import Mathlib.Data.List.Basic
import Mathlib.Data.List.Induction

/-!
# Overlays

Named entries, operations and interfaces are put on top of others by name: what is put replaces the
one of its name where it stands, and comes last when its name is new. So of several declarations
under a name the one put last counts, and names stand in the order in which they first came.
-/
namespace DeployPlan

/-- Names with one more at the end, unless it is there. -/
def addName (names : List String) (name : String) : List String :=
  if name ∈ names then names else names ++ [name]

/-- A name that comes after others is kept unless it came before. -/
theorem eraseDups_concat (names : List String) (name : String) :
    (names ++ [name]).eraseDups = addName names.eraseDups name := by
  rw [List.eraseDups_append, addName]
  by_cases h : name ∈ names <;> simp [List.removeAll, List.eraseDups_cons, h]

/-- Of the names that were not seen before, the first one is kept and then counts as seen. -/
theorem eraseDups_filter_cons {name : String} {names seen seen' : List String} (hname : name ∉ seen)
    (h : ∀ x, x ∈ seen' ↔ x = name ∨ x ∈ seen) :
    ((name :: names).filter (· ∉ seen)).eraseDups =
      name :: (names.filter (· ∉ seen')).eraseDups := by
  have hrest : (names.filter (· ∉ seen)).filter (fun x => !x == name) =
      names.filter (· ∉ seen') := by
    rw [List.filter_filter]
    refine List.filter_congr fun x _ => ?_
    by_cases hx : x = name <;> simp [h, hx]
  rw [List.filter_cons_of_pos (by simpa using hname), List.eraseDups_cons, hrest]

theorem foldl_addName (names later : List String) :
    later.foldl addName names.eraseDups = (names ++ later).eraseDups := by
  induction later generalizing names with
  | nil => simp
  | cons name later ih =>
    rw [List.foldl_cons, ← eraseDups_concat, ih, List.append_assoc, List.singleton_append]

/-- Distinct names that are added come after the others, but for those that are there. -/
theorem foldl_addName_of_nodup {later : List String} (h : later.Nodup) (names : List String) :
    later.foldl addName names = names ++ later.filter (· ∉ names) := by
  induction later generalizing names with
  | nil => simp
  | cons name later ih =>
    obtain ⟨hnew, hrest⟩ := List.nodup_cons.1 h
    rw [List.foldl_cons, ih hrest, addName]
    by_cases hmem : name ∈ names
    · rw [if_pos hmem, List.filter_cons_of_neg (by simpa using hmem)]
    · have hothers : later.filter (· ∉ names ++ [name]) = later.filter (· ∉ names) := by
        refine List.filter_congr fun x hx => ?_
        have hne : x ≠ name := fun heq => hnew (heq ▸ hx)
        simp [hne]
      rw [if_neg hmem, hothers, List.filter_cons_of_pos (by simpa using hmem), List.append_assoc,
        List.singleton_append]

theorem nodup_addName {names : List String} (h : names.Nodup) (name : String) :
    (addName names name).Nodup := by
  unfold addName
  split
  · exact h
  · next hnew =>
    have hne : ∀ x ∈ names, x ≠ name := fun x hx heq => hnew (heq ▸ hx)
    simpa [List.nodup_append, h] using hne

theorem nodup_eraseDups (names : List String) : names.eraseDups.Nodup := by
  induction names using List.reverseRecOn with
  | nil => exact List.nodup_nil
  | append_singleton names name ih =>
    rw [eraseDups_concat]
    exact nodup_addName ih name

section

variable {α : Type} (key : α → String)

/-- The items with `a` in place of the first one under its key, or at the end. -/
def putBy (a : α) : List α → List α
  | [] => [a]
  | b :: bs => if key b = key a then a :: bs else b :: putBy a bs

/-- The items of `base`, those of `later` put on top in turn. -/
def overlayBy (base later : List α) : List α := later.foldl (fun items a => putBy key a items) base

/-- The first item under a key. -/
def findBy? (name : String) (items : List α) : Option α := items.find? (key · = name)

variable {key}

theorem findBy?_cons (name : String) (a : α) (items : List α) :
    findBy? key name (a :: items) = if key a = name then some a else findBy? key name items := by
  by_cases h : key a = name <;> simp [findBy?, h]

theorem findBy?_eq_none_iff {name : String} {items : List α} :
    findBy? key name items = none ↔ name ∉ items.map key := by
  simp [findBy?]

theorem findBy?_eq_none {name : String} {items : List α} (h : name ∉ items.map key) :
    findBy? key name items = none := findBy?_eq_none_iff.2 h

/-- Where names are distinct, an item is the one under its name. -/
theorem findBy?_eq_some_iff {name : String} {a : α} {items : List α}
    (h : (items.map key).Nodup) : findBy? key name items = some a ↔ a ∈ items ∧ key a = name := by
  induction items with
  | nil => simp [findBy?]
  | cons b items ih =>
    rw [List.map_cons, List.nodup_cons] at h
    rw [findBy?_cons]
    by_cases hb : key b = name
    · rw [if_pos hb, Option.some_inj, List.mem_cons]
      constructor
      · rintro rfl
        exact ⟨.inl rfl, hb⟩
      · rintro ⟨rfl | ha, hname⟩
        · rfl
        · exact absurd (List.mem_map_of_mem ha) (hname.trans hb.symm ▸ h.1)
    · rw [if_neg hb, ih h.2, List.mem_cons]
      constructor
      · exact fun ⟨ha, hname⟩ => ⟨.inr ha, hname⟩
      · rintro ⟨rfl | ha, hname⟩
        · exact absurd hname hb
        · exact ⟨ha, hname⟩

theorem findBy?_putBy (name : String) (a : α) (items : List α) :
    findBy? key name (putBy key a items) =
      if key a = name then some a else findBy? key name items := by
  induction items with
  | nil => simp only [putBy, findBy?_cons]
  | cons b items ih =>
    by_cases hb : key b = key a
    · rw [putBy, if_pos hb, findBy?_cons, findBy?_cons, hb]
      split <;> rfl
    · simp only [putBy, if_neg hb, findBy?_cons, ih]
      by_cases ha : key a = name
      · have hne : key b ≠ name := ha ▸ hb
        simp [ha, hne]
      · simp [ha]

theorem map_putBy (a : α) (items : List α) :
    (putBy key a items).map key = addName (items.map key) (key a) := by
  induction items with
  | nil => simp [putBy, addName]
  | cons b items ih =>
    by_cases hb : key b = key a
    · simp [putBy, addName, hb]
    · have hb' : key a ≠ key b := Ne.symm hb
      rw [putBy, if_neg hb, List.map_cons, ih]
      simp only [addName, List.map_cons, List.mem_cons, hb', false_or]
      split <;> simp

@[simp] theorem overlayBy_nil (base : List α) : overlayBy key base [] = base := rfl

@[simp] theorem overlayBy_cons (base : List α) (a : α) (later : List α) :
    overlayBy key base (a :: later) = overlayBy key (putBy key a base) later := rfl

/-- Under each name the item put on top counts. -/
theorem findBy?_overlayBy {later : List α} (h : (later.map key).Nodup) (name : String)
    (base : List α) : findBy? key name (overlayBy key base later) =
      (findBy? key name later).or (findBy? key name base) := by
  induction later generalizing base with
  | nil => rfl
  | cons a later ih =>
    rw [List.map_cons, List.nodup_cons] at h
    rw [overlayBy_cons, ih h.2, findBy?_putBy, findBy?_cons]
    by_cases ha : key a = name
    · have hnone : findBy? key name later = none := findBy?_eq_none (ha ▸ h.1)
      simp [ha, hnone]
    · simp [ha]

/-- Names stand in the order in which they first came. -/
theorem map_overlayBy {base later : List α} {names : List String}
    (h : base.map key = names.eraseDups) :
    (overlayBy key base later).map key = (names ++ later.map key).eraseDups := by
  rw [← foldl_addName, ← h]
  clear h
  induction later generalizing base with
  | nil => rfl
  | cons a later ih => rw [overlayBy_cons, ih, map_putBy, List.map_cons, List.foldl_cons]

theorem nodup_overlayBy {base : List α} (h : (base.map key).Nodup) (later : List α) :
    ((overlayBy key base later).map key).Nodup := by
  induction later generalizing base with
  | nil => exact h
  | cons a later ih =>
    refine ih ?_
    rw [map_putBy]
    exact nodup_addName h _

/-- Items of new names come after those that are there. -/
theorem overlayBy_of_disjoint {base later : List α} (h : ((base ++ later).map key).Nodup) :
    overlayBy key base later = base ++ later := by
  induction later generalizing base with
  | nil => simp
  | cons a later ih =>
    have hnew : key a ∉ base.map key := by
      rw [List.map_append, List.nodup_append] at h
      exact fun hmem => h.2.2 _ hmem _ List.mem_cons_self rfl
    have hput : putBy key a base = base ++ [a] := by
      clear h ih
      induction base with
      | nil => rfl
      | cons b base ih =>
        rw [List.map_cons, List.mem_cons, not_or] at hnew
        rw [putBy, if_neg (Ne.symm hnew.1), ih hnew.2, List.cons_append]
    rw [overlayBy_cons, hput, ih (by simpa using h), List.append_assoc, List.singleton_append]

end

namespace Entries

variable {α : Type}

theorem get?_eq_findBy? (name : String) (es : List (String × α)) :
    get? name es = (findBy? Prod.fst name es).map (·.2) := by
  induction es with
  | nil => rfl
  | cons e es ih =>
    rw [get?, findBy?_cons, ih]
    split <;> rfl

theorem put_eq_putBy (name : String) (value : α) (es : List (String × α)) :
    put name value es = putBy Prod.fst (name, value) es := by
  induction es with
  | nil => rfl
  | cons e es ih =>
    rw [put, putBy, ih]
    split
    · next h => rw [h]
    · rfl

theorem putAll_eq_overlayBy (base later : List (String × α)) :
    putAll base later = overlayBy Prod.fst base later := by
  simp only [putAll, overlayBy, put_eq_putBy]

/-- Under each name the entry put on top counts. -/
theorem get?_putAll {later : List (String × α)} (h : (names later).Nodup) (name : String)
    (base : List (String × α)) :
    get? name (putAll base later) = (get? name later).or (get? name base) := by
  rw [putAll_eq_overlayBy, get?_eq_findBy?, findBy?_overlayBy h, get?_eq_findBy?,
    get?_eq_findBy?, Option.map_or]

theorem names_putAll {base later : List (String × α)} {ns : List String}
    (h : names base = ns.eraseDups) :
    names (putAll base later) = (ns ++ names later).eraseDups := by
  rw [putAll_eq_overlayBy]
  exact map_overlayBy h

/-- The values of all entries under a name, in order. -/
def valuesUnder (name : String) (es : List (String × α)) : List α :=
  (es.filter (·.1 = name)).map (·.2)

@[simp] theorem valuesUnder_nil (name : String) :
    valuesUnder name ([] : List (String × α)) = [] := rfl

theorem valuesUnder_cons {name other : String} {v : α} {es : List (String × α)} :
    valuesUnder name ((other, v) :: es) =
      (if other = name then [v] else []) ++ valuesUnder name es := by
  by_cases h : other = name <;> simp [valuesUnder, h]

/-- Under each name the last entry that was put counts. -/
theorem get?_putAll_eq_getLast?_or (later base : List (String × α)) (name : String) :
    get? name (putAll base later) = (valuesUnder name later).getLast?.or (get? name base) := by
  induction later generalizing base with
  | nil => rfl
  | cons e later ih =>
    obtain ⟨other, v⟩ := e
    have hput : putAll base ((other, v) :: later) = putAll (put other v base) later := rfl
    rw [hput, ih, valuesUnder_cons, List.getLast?_append, Option.or_assoc]
    by_cases h : other = name
    · subst h
      simp
    · simp [h, get?_put_of_ne (Ne.symm h)]

/-- Entries of distinct names are told by their names and the values under them. -/
theorem filterMap_names {es : List (String × α)} (h : (names es).Nodup) :
    (names es).filterMap (fun name => (get? name es).map (name, ·)) = es := by
  induction es with
  | nil => rfl
  | cons e es ih =>
    obtain ⟨name, v⟩ := e
    obtain ⟨hnew, hrest⟩ := List.nodup_cons.1 h
    have hothers : (names es).filterMap
          (fun other => (get? other ((name, v) :: es)).map (other, ·)) =
        (names es).filterMap (fun other => (get? other es).map (other, ·)) := by
      refine List.filterMap_congr fun other hother => ?_
      have hne : name ≠ other := fun heq => hnew (heq ▸ hother)
      rw [get?, if_neg hne]
    have hfirst : get? name ((name, v) :: es) = some v := if_pos rfl
    show (name :: names es).filterMap _ = _
    rw [List.filterMap_cons_some (by rw [hfirst, Option.map_some]), hothers, ih hrest]

/-- The entries of a list of which each is the last one under its name, in the order in which the
names first came. -/
def lastUnderNames (es : List (String × α)) : List (String × α) :=
  (names es).eraseDups.filterMap fun name => (valuesUnder name es).getLast?.map (name, ·)

theorem putAll_nil (es : List (String × α)) : putAll [] es = lastUnderNames es := by
  have hnone : names ([] : List (String × α)) = ([] : List String).eraseDups := rfl
  have hnames : names (putAll [] es) = (names es).eraseDups := names_putAll hnone
  have hdistinct : (names (putAll [] es)).Nodup := by
    have hnil : (([] : List (String × α)).map Prod.fst).Nodup := List.nodup_nil
    rw [putAll_eq_overlayBy]
    exact nodup_overlayBy hnil es
  have hvalues (name : String) :
      get? name (putAll [] es) = (valuesUnder name es).getLast? := by
    rw [get?_putAll_eq_getLast?_or, get?_nil, Option.or_none]
  rw [← filterMap_names hdistinct]
  simp only [hnames, hvalues, lastUnderNames]

end Entries

/-- Of the entries that are put in turn the last one under a name counts. -/
theorem NameMap.getElem?_foldl_insert {α : Type} (es : List (String × α)) (m : NameMap α)
    (name : String) : (es.foldl (fun m e => m.insert e.1 e.2) m)[name]? =
      (Entries.valuesUnder name es).getLast?.or m[name]? := by
  induction es generalizing m with
  | nil => rfl
  | cons e es ih =>
    obtain ⟨other, v⟩ := e
    rw [List.foldl_cons, ih, Std.ExtTreeMap.getElem?_insert, Entries.valuesUnder_cons,
      List.getLast?_append, Option.or_assoc]
    by_cases h : other = name <;> simp [h]

/-- Under each name the entry put on top counts. -/
theorem NameMap.getElem?_overlay {α : Type} (base later : NameMap α) (name : String) :
    (overlay base later)[name]? = later[name]?.or base[name]? := by
  rw [overlay, ← Std.ExtTreeMap.insertMany_list_eq_foldl]
  cases h : later[name]? with
  | some v =>
    exact Std.ExtTreeMap.getElem?_insertMany_list_of_mem Std.ReflCmp.compare_self
      Std.ExtTreeMap.distinct_keys_toList (Std.ExtTreeMap.mem_toList_iff_getElem?_eq_some.2 h)
  | none =>
    refine Std.ExtTreeMap.getElem?_insertMany_list_of_contains_eq_false ?_
    rw [Std.ExtTreeMap.map_fst_toList_eq_keys]
    simpa [Std.ExtTreeMap.mem_keys] using h

namespace TypeCatalog

theorem overlayOperations_eq_overlayBy (base later : List Operation) :
    overlayOperations base later = overlayBy Operation.name base later := by
  have hput (op : Operation) (ops : List Operation) :
      (if ops.any (·.name = op.name) then overlayOperations.replaceFirst op ops else ops ++ [op]) =
        putBy Operation.name op ops := by
    induction ops with
    | nil => rfl
    | cons o ops ih =>
      rw [putBy, ← ih]
      by_cases ho : o.name = op.name
      · simp [ho, overlayOperations.replaceFirst]
      · simp only [ho, List.any_cons, decide_false, Bool.false_or, overlayOperations.replaceFirst,
          if_false]
        split <;> rfl
  simp only [overlayOperations, overlayBy, hput]

end TypeCatalog

end DeployPlan
