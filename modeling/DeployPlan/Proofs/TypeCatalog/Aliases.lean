import DeployPlan.Proofs.TypeCatalog.Profile

/-!
# Interfaces under aliases

The operations of a profile under several aliases are those under the first alias that a definition
on the chain uses. So of the definitions on a chain those count whose own first alias it is, and of
several that count the nearest one that declares an operation.
-/
namespace DeployPlan

/-- The first of some aliases under which there is an interface. -/
def firstAlias? (aliases : List String) (is : List Interface) : Option String :=
  aliases.find? fun a => a ∈ is.map (·.name)

variable {aliases : List String} {is is' : List Interface}

/-- The first alias depends on the names of the interfaces only. -/
theorem firstAlias?_congr (h : ∀ a ∈ aliases, a ∈ is.map (·.name) ↔ a ∈ is'.map (·.name)) :
    firstAlias? aliases is = firstAlias? aliases is' := by
  induction aliases with
  | nil => rfl
  | cons a aliases ih =>
    rw [List.forall_mem_cons] at h
    rw [firstAlias?, firstAlias?, List.find?_cons, List.find?_cons, decide_eq_decide.2 h.1,
      ← firstAlias?, ← firstAlias?, ih h.2]

/-- The operations under several aliases are those under the first one. -/
theorem operationsUnder_eq_elim (aliases : List String) (is : List Interface) :
    operationsUnder aliases is =
      (firstAlias? aliases is).elim [] fun a => operationsUnder [a] is := by
  induction aliases with
  | nil => rfl
  | cons a aliases ih =>
    rw [firstAlias?, List.find?_cons, ← firstAlias?]
    by_cases ha : a ∈ is.map (·.name)
    · obtain ⟨i, hi⟩ : ∃ i, is.find? (·.name = a) = some i := by
        rw [← Option.isSome_iff_exists]
        simpa using ha
      simp only [ha, operationsUnder, findInterface?, List.findSome?_cons, hi]
      simp [hi]
    · have hi : is.find? (·.name = a) = none := by simpa using ha
      simp only [ha, decide_false, ← ih]
      simp only [operationsUnder, findInterface?, List.findSome?_cons, hi]

theorem nodup_operationsUnder (h : ∀ i ∈ is, i.Distinct) (aliases : List String) :
    ((operationsUnder aliases is).map (·.name)).Nodup := by
  rw [operationsUnder_eq_elim]
  cases firstAlias? aliases is with
  | none => exact List.nodup_nil
  | some a => exact TypeCatalog.operationsUnder_nodup h a

theorem findBy?_overlayOperation (x : String) (op : Operation) (ops : List Operation) :
    findBy? Operation.name x (overlayOperation op ops) =
      if op.name = x then
        (if op.isEffective then some op else (findBy? Operation.name x ops).or (some op))
      else findBy? Operation.name x ops := by
  induction ops with
  | nil =>
    rw [overlayOperation, findBy?_cons]
    by_cases hop : op.name = x <;> simp [hop, findBy?]
  | cons base ops ih =>
    by_cases hbase : base.name = op.name
    · rw [overlayOperation, if_pos hbase, findBy?_cons, findBy?_cons, hbase]
      by_cases hop : op.name = x <;> by_cases he : op.isEffective = true <;>
        simp [hop, he, hbase]
    · rw [overlayOperation, if_neg hbase, findBy?_cons, ih, findBy?_cons]
      by_cases hop : op.name = x
      · have hne : base.name ≠ x := hop ▸ hbase
        simp [hop, hne]
      · simp [hop]

/-- Of the operations of a name an own one that names a script counts, then that of the type, then
any own one. -/
theorem findBy?_mergedOperations {own : List Interface} (h : ∀ i ∈ own, i.Distinct)
    (typeLevel : List Interface) (aliases : List String) (x : String) :
    findBy? Operation.name x (mergedOperations typeLevel own aliases) =
      (((findBy? Operation.name x (operationsUnder aliases own)).filter (·.isEffective)).or
        (findBy? Operation.name x (operationsUnder aliases typeLevel))).or
        (findBy? Operation.name x (operationsUnder aliases own)) := by
  have hnodup := nodup_operationsUnder h aliases
  unfold mergedOperations
  generalize operationsUnder aliases typeLevel = base
  generalize operationsUnder aliases own = later at hnodup ⊢
  induction later generalizing base with
  | nil => simp [findBy?]
  | cons op later ih =>
    rw [List.map_cons, List.nodup_cons] at hnodup
    rw [List.foldl_cons, ih _ hnodup.2, findBy?_overlayOperation, findBy?_cons]
    by_cases hop : op.name = x
    · have hrest : findBy? Operation.name x later = none := findBy?_eq_none (hop ▸ hnodup.1)
      by_cases he : op.isEffective = true <;> simp [hop, he, hrest, Option.filter]
    · simp [hop]

/-- Operations of distinct names stay so when own ones are laid over them. -/
theorem nodup_mergedOperations {typeLevel : List Interface}
    (h : ((operationsUnder aliases typeLevel).map (·.name)).Nodup) (own : List Interface) :
    ((mergedOperations typeLevel own aliases).map (·.name)).Nodup := by
  unfold mergedOperations
  generalize operationsUnder aliases typeLevel = base at h
  generalize operationsUnder aliases own = later
  induction later generalizing base with
  | nil => exact h
  | cons op later ih =>
    refine ih _ ?_
    rw [names_overlayOperation]
    exact nodup_addName h op.name

namespace TypeDefinition

/-- Of the definitions on a chain those count for an interface with aliases that use the alias which
is the first one on the chain. -/
def Counts (aliases : List String) (ds : List TypeDefinition) (d : TypeDefinition) : Prop :=
  firstAlias? aliases d.interfaces = firstAlias? aliases (ds.flatMap (·.interfaces))

instance (aliases : List String) (ds : List TypeDefinition) (d : TypeDefinition) :
    Decidable (d.Counts aliases ds) :=
  inferInstanceAs (Decidable (_ = _))

/-- The operations that a definition on a chain declares, if it counts. -/
def counted (aliases : List String) (ds : List TypeDefinition) (d : TypeDefinition) :
    List Operation :=
  if d.Counts aliases ds then operationsUnder aliases d.interfaces else []

variable {ds : List TypeDefinition} {d : TypeDefinition}

theorem nodup_counted (h : d.Distinct) : ((d.counted aliases ds).map (·.name)).Nodup := by
  rw [counted]
  split
  · exact nodup_operationsUnder h.operations aliases
  · exact List.nodup_nil

theorem counted_of_none (h : firstAlias? aliases (ds.flatMap (·.interfaces)) = none) :
    d.counted aliases ds = [] := by
  rw [counted]
  split
  · next hcounts =>
    rw [operationsUnder_eq_elim, hcounts.trans h]
    rfl
  · rfl

/-- A definition on the chain that does not count has no interface under the first alias. -/
theorem counted_of_some {a : String} (hd : d ∈ ds)
    (h : firstAlias? aliases (ds.flatMap (·.interfaces)) = some a) :
    d.counted aliases ds = operationsUnder [a] d.interfaces := by
  rw [counted]
  split
  · next hcounts =>
    rw [operationsUnder_eq_elim, hcounts.trans h]
    rfl
  · next hcounts =>
    refine (TypeCatalog.operationsUnder_eq_nil fun ha => hcounts ?_).symm
    rw [Counts, h]
    obtain ⟨-, before, after, rfl, hbefore⟩ := List.find?_eq_some_iff_append.1 h
    refine List.find?_eq_some_iff_append.2 ⟨decide_eq_true ha, before, after, rfl, fun b hb => ?_⟩
    have hnone := hbefore b hb
    simp only [Bool.not_eq_true', decide_eq_false_iff_not, List.map_flatMap, List.mem_flatMap,
      not_exists, not_and] at hnone ⊢
    exact hnone d hd

end TypeDefinition

/-- Lists of operations laid over one another, the first one on top. -/
def layered (opss : List (List Operation)) : List Operation :=
  opss.foldr (fun later base => overlayBy Operation.name base later) []

theorem nodup_layered (opss : List (List Operation)) : ((layered opss).map (·.name)).Nodup := by
  induction opss with
  | nil => exact List.nodup_nil
  | cons ops opss ih =>
    rw [layered, List.foldr_cons, ← layered]
    exact nodup_overlayBy ih ops

/-- Of the operations of a name the one in the first list that has one counts. -/
theorem findBy?_layered {opss : List (List Operation)}
    (h : ∀ ops ∈ opss, (ops.map (·.name)).Nodup) (x : String) :
    findBy? Operation.name x (layered opss) = opss.findSome? (findBy? Operation.name x) := by
  induction opss with
  | nil => rfl
  | cons ops opss ih =>
    rw [List.forall_mem_cons] at h
    rw [layered, List.foldr_cons, ← layered, findBy?_overlayBy h.1, ih h.2, List.findSome?_cons]
    cases findBy? Operation.name x ops <;> rfl

namespace TypeCatalog

variable {ds : List TypeDefinition}

/-- The profile that the definitions on a chain make. -/
def folded (typeName : String) (ds : List TypeDefinition) (parents : List String) : TypeProfile :=
  ds.reverse.foldl overlay { TypeProfile.bare typeName with derivedFrom := parents }

theorem folded_cons (typeName : String) (d : TypeDefinition) (ds : List TypeDefinition)
    (parents : List String) :
    folded typeName (d :: ds) parents = overlay (folded typeName ds parents) d := by
  rw [folded, List.reverse_cons, List.foldl_concat, folded]

/-- The profile of a type whose chain ends is folded from it. -/
theorem lookup_of_derivation {c : TypeCatalog} {dependencies : List Coordinates} {typeName : String}
    {parents : List String} (h : c.Derivation dependencies typeName ds parents) :
    c.lookup typeName dependencies = .ok (folded typeName ds parents) := by
  rw [lookup, climb_eq_ok_iff.2 h, folded]

/-- Under one name the operations of the definitions are laid over one another. -/
theorem operationsUnder_folded_single (h : ∀ d ∈ ds, d.Distinct) (typeName : String)
    (parents : List String) (a : String) :
    operationsUnder [a] (folded typeName ds parents).interfaces =
      layered (ds.map fun d => operationsUnder [a] d.interfaces) := by
  induction ds with
  | nil => rfl
  | cons d ds ih =>
    rw [List.forall_mem_cons] at h
    have hover := operationsUnder_overlayInterfaces h.1.interfaces h.1.operations a
      (folded typeName ds parents).interfaces
    rw [ih h.2] at hover
    rw [folded_cons]
    exact hover

/-- The first alias of a profile is the first one on the chain. -/
theorem firstAlias?_folded (h : ∀ d ∈ ds, d.Distinct) (typeName : String) (parents : List String)
    (aliases : List String) : firstAlias? aliases (folded typeName ds parents).interfaces =
      firstAlias? aliases (ds.flatMap (·.interfaces)) := by
  refine firstAlias?_congr fun a _ => ?_
  rw [folded, (folds_foldl h typeName parents).interfaceOrder, List.mem_eraseDups,
    List.map_flatMap]
  simp only [List.mem_flatMap, List.mem_reverse]

/-- Under several aliases the operations of the definitions that count are laid over one another. -/
theorem operationsUnder_folded (h : ∀ d ∈ ds, d.Distinct) (typeName : String)
    (parents : List String) (aliases : List String) :
    operationsUnder aliases (folded typeName ds parents).interfaces =
      layered (ds.map (·.counted aliases ds)) := by
  rw [operationsUnder_eq_elim, firstAlias?_folded h]
  cases ha : firstAlias? aliases (ds.flatMap (·.interfaces)) with
  | none =>
    have hnil (d : TypeDefinition) : d.counted aliases ds = [] := TypeDefinition.counted_of_none ha
    simp only [hnil]
    clear h ha hnil
    induction ds with
    | nil => rfl
    | cons d ds ih => exact ih
  | some a =>
    refine (operationsUnder_folded_single h typeName parents a).trans (congrArg layered ?_)
    exact List.map_congr_left fun d hd => (TypeDefinition.counted_of_some hd ha).symm

end TypeCatalog

end DeployPlan
