import DeployPlan.Lifecycle
import DeployPlan.Proofs.Overlay
import DeployPlan.Proofs.TypeCatalog.Derivation
import DeployPlan.Proofs.TypeCatalog.Documents

/-!
# Profiles of types

The profile of a type is the fold of the definitions on its chain, from the most distant one down:
each member is the one of the nearest definition that declares it, and members stand in the order in
which they are first declared. There is a profile exactly when the chain ends.
-/
namespace DeployPlan

/-- The operation of a name in the interface of a name. -/
def operation? (iface name : String) (interfaces : List Interface) : Option Operation :=
  findBy? Operation.name name (operationsUnder [iface] interfaces)

/-- A profile is what the definitions on a chain say, the one of the type first. -/
structure TypeProfile.Folds (p : TypeProfile) (typeName : String) (ds : List TypeDefinition)
    (parents : List String) : Prop where
  name : p.name = typeName
  derivedFrom : p.derivedFrom = parents
  propertyValue : ∀ x : String, p.properties[x]? = ds.findSome? (·.properties[x]?)
  attributeValue : ∀ x, Entries.get? x p.attributes = ds.findSome? (Entries.get? x ·.attributes)
  attributeOrder : Entries.names p.attributes =
    (ds.reverse.flatMap (Entries.names ·.attributes)).eraseDups
  artifactValue : ∀ x, Entries.get? x p.artifacts = ds.findSome? (Entries.get? x ·.artifacts)
  artifactOrder : Entries.names p.artifacts =
    (ds.reverse.flatMap (Entries.names ·.artifacts)).eraseDups
  interfaceOrder : p.interfaces.map (·.name) =
    (ds.reverse.flatMap (·.interfaces.map (·.name))).eraseDups
  operationValue : ∀ iface x,
    operation? iface x p.interfaces = ds.findSome? (operation? iface x ·.interfaces)
  operationOrder : ∀ iface, (operationsUnder [iface] p.interfaces).map (·.name) =
    (ds.reverse.flatMap fun d => (operationsUnder [iface] d.interfaces).map (·.name)).eraseDups

namespace TypeCatalog

theorem operationsUnder_cons (iface : String) (i : Interface) (is : List Interface) :
    operationsUnder [iface] (i :: is) =
      if i.name = iface then i.operations else operationsUnder [iface] is := by
  simp only [operationsUnder, findInterface?, List.findSome?_cons, List.find?_cons]
  by_cases hi : i.name = iface <;> simp [hi]

theorem operationsUnder_eq_nil {iface : String} {is : List Interface}
    (h : iface ∉ is.map (·.name)) : operationsUnder [iface] is = [] := by
  induction is with
  | nil => rfl
  | cons i is ih =>
    rw [List.map_cons, List.mem_cons, not_or] at h
    rw [operationsUnder_cons, if_neg (Ne.symm h.1), ih h.2]

theorem operationsUnder_nodup {is : List Interface} (h : ∀ i ∈ is, i.Distinct) (iface : String) :
    ((operationsUnder [iface] is).map (·.name)).Nodup := by
  induction is with
  | nil => exact List.nodup_nil
  | cons i is ih =>
    rw [List.forall_mem_cons] at h
    rw [operationsUnder_cons]
    split
    · exact h.1
    · exact ih h.2

theorem map_overlayInterface (i : Interface) (is : List Interface) :
    (overlayInterface i is).map (·.name) = addName (is.map (·.name)) i.name := by
  induction is with
  | nil => simp [overlayInterface, addName]
  | cons j is ih =>
    by_cases hj : j.name = i.name
    · simp [overlayInterface, addName, hj]
    · have hj' : i.name ≠ j.name := Ne.symm hj
      rw [overlayInterface, if_neg hj, List.map_cons, ih]
      simp only [addName, List.map_cons, List.mem_cons, hj', false_or]
      split <;> simp

/-- The operations of an interface go on top of those that stand under its name. -/
theorem operationsUnder_overlayInterface {i : Interface} (h : i.Distinct) (iface : String)
    (is : List Interface) : operationsUnder [iface] (overlayInterface i is) =
      if i.name = iface then overlayBy Operation.name (operationsUnder [iface] is) i.operations
      else operationsUnder [iface] is := by
  induction is with
  | nil =>
    have hall : overlayBy Operation.name [] i.operations = i.operations := by
      rw [overlayBy_of_disjoint (by simpa [Interface.Distinct] using h), List.nil_append]
    have hnil : operationsUnder [iface] [] = [] := rfl
    rw [overlayInterface, operationsUnder_cons, hnil, hall]
  | cons j is ih =>
    by_cases hj : j.name = i.name
    · rw [overlayInterface, if_pos hj, operationsUnder_cons, operationsUnder_cons, hj,
        overlayOperations_eq_overlayBy]
      split <;> rfl
    · rw [overlayInterface, if_neg hj, operationsUnder_cons, operationsUnder_cons, ih]
      by_cases hi : i.name = iface
      · have hne : j.name ≠ iface := hi ▸ hj
        rw [if_neg hne, if_neg hne]
      · simp only [if_neg hi]

def overlayInterfaces (base later : List Interface) : List Interface :=
  later.foldl (fun is i => overlayInterface i is) base

theorem map_overlayInterfaces {base later : List Interface} {names : List String}
    (h : base.map (·.name) = names.eraseDups) :
    (overlayInterfaces base later).map (·.name) =
      (names ++ later.map (·.name)).eraseDups := by
  rw [← foldl_addName, ← h]
  clear h
  induction later generalizing base with
  | nil => rfl
  | cons i later ih =>
    rw [overlayInterfaces, List.foldl_cons, ← overlayInterfaces, ih, map_overlayInterface,
      List.map_cons, List.foldl_cons]

/-- Under each name the operations of interfaces go on top of those of others. -/
theorem operationsUnder_overlayInterfaces {later : List Interface}
    (hnames : (later.map (·.name)).Nodup) (hops : ∀ i ∈ later, i.Distinct) (iface : String)
    (base : List Interface) : operationsUnder [iface] (overlayInterfaces base later) =
      overlayBy Operation.name (operationsUnder [iface] base) (operationsUnder [iface] later) := by
  induction later generalizing base with
  | nil => rfl
  | cons i later ih =>
    rw [List.map_cons, List.nodup_cons] at hnames
    rw [List.forall_mem_cons] at hops
    rw [overlayInterfaces, List.foldl_cons, ← overlayInterfaces, ih hnames.2 hops.2,
      operationsUnder_overlayInterface hops.1, operationsUnder_cons]
    by_cases hi : i.name = iface
    · have hrest : operationsUnder [iface] later = [] := operationsUnder_eq_nil (hi ▸ hnames.1)
      rw [if_pos hi, if_pos hi, hrest, overlayBy_nil]
    · rw [if_neg hi, if_neg hi]

/-- Of definitions with one more below them the one below counts first. -/
theorem findSome?_below {α : Type} (get : TypeDefinition → Option α) {d : TypeDefinition}
    {ds : List TypeDefinition} {value : Option α} (h : value = ds.findSome? get) :
    (get d).or value = (d :: ds).findSome? get := by
  rw [h, List.findSome?_cons]
  cases get d <;> rfl

/-- The names of definitions with one more below them end in its names. -/
theorem flatMap_below (names : TypeDefinition → List String) (d : TypeDefinition)
    (ds : List TypeDefinition) :
    (d :: ds).reverse.flatMap names = ds.reverse.flatMap names ++ names d := by
  simp

/-- The profile before any definition is put on it. -/
theorem folds_bare (typeName : String) (parents : List String) :
    { TypeProfile.bare typeName with derivedFrom := parents }.Folds typeName [] parents where
  name := rfl
  derivedFrom := rfl
  propertyValue _ := Std.ExtTreeMap.getElem?_empty
  attributeValue _ := rfl
  attributeOrder := rfl
  artifactValue _ := rfl
  artifactOrder := rfl
  interfaceOrder := rfl
  operationValue _ _ := rfl
  operationOrder _ := rfl

/-- Putting the definition of a type on top of those above it. -/
theorem folds_overlay {p : TypeProfile} {typeName : String} {ds : List TypeDefinition}
    {parents : List String} (h : p.Folds typeName ds parents) {d : TypeDefinition}
    (hd : d.Distinct) : (overlay p d).Folds typeName (d :: ds) parents where
  name := h.name
  derivedFrom := h.derivedFrom
  propertyValue x := by
    rw [TypeCatalog.overlay, NameMap.getElem?_overlay]
    exact findSome?_below (·.properties[x]?) (h.propertyValue x)
  attributeValue x := by
    rw [TypeCatalog.overlay, Entries.get?_putAll hd.attributes]
    exact findSome?_below (Entries.get? x ·.attributes) (h.attributeValue x)
  attributeOrder := by
    rw [TypeCatalog.overlay, flatMap_below]
    exact Entries.names_putAll h.attributeOrder
  artifactValue x := by
    rw [TypeCatalog.overlay, Entries.get?_putAll hd.artifacts]
    exact findSome?_below (Entries.get? x ·.artifacts) (h.artifactValue x)
  artifactOrder := by
    rw [TypeCatalog.overlay, flatMap_below]
    exact Entries.names_putAll h.artifactOrder
  interfaceOrder := by
    rw [flatMap_below]
    exact map_overlayInterfaces h.interfaceOrder
  operationValue iface x := by
    have hops := operationsUnder_overlayInterfaces hd.interfaces hd.operations iface p.interfaces
    have hfind := findBy?_overlayBy (operationsUnder_nodup hd.operations iface) x
      (operationsUnder [iface] p.interfaces)
    rw [← hops] at hfind
    exact hfind.trans (findSome?_below (operation? iface x ·.interfaces) (h.operationValue iface x))
  operationOrder iface := by
    have hops := operationsUnder_overlayInterfaces hd.interfaces hd.operations iface p.interfaces
    rw [flatMap_below, ← map_overlayBy (h.operationOrder iface), ← hops]
    rfl

/-- Definitions folded from the most distant one down. -/
theorem folds_foldl {ds : List TypeDefinition} (h : ∀ d ∈ ds, d.Distinct) (typeName : String)
    (parents : List String) :
    (ds.reverse.foldl overlay { TypeProfile.bare typeName with derivedFrom := parents }).Folds
      typeName ds parents := by
  rw [List.foldl_reverse]
  induction ds with
  | nil => exact folds_bare typeName parents
  | cons d ds ih =>
    rw [List.forall_mem_cons] at h
    exact folds_overlay (ih h.2) h.1

variable {c : TypeCatalog} {dependencies : List Coordinates}

theorem mem_of_selects {name : String} {d : TypeDefinition}
    (h : c.Selects dependencies name d) : d ∈ c.definitions := by
  rcases h with ⟨earlier, later, hsplit, -⟩ | ⟨-, earlier, later, hsplit, -⟩ <;> simp [hsplit]

theorem Derivation.mem {name : String} {ds : List TypeDefinition} {parents : List String}
    (h : c.Derivation dependencies name ds parents) : ∀ d ∈ ds, d ∈ c.definitions := by
  induction h with
  | unindexed => simp
  | top hd => simpa using mem_of_selects hd
  | step hd _ _ ih => exact List.forall_mem_cons.2 ⟨mem_of_selects hd, ih⟩

/-- The profile of a type is refused exactly when the chain of its parents comes back to a name, and
is else what the definitions on the chain say. It depends on the set of dependencies only. -/
theorem lookup_folds_derivation (h : c.Built) (dependencies : List Coordinates)
    (typeName : String) :
    ((∃ met, c.lookup typeName dependencies = .error (.compile (.cyclicTypeHierarchy met))) ↔
      c.Revisits dependencies typeName) ∧
    (¬ c.Revisits dependencies typeName → ∃ ds parents p,
      c.Derivation dependencies typeName ds parents ∧
      c.lookup typeName dependencies = .ok p ∧ p.Folds typeName ds parents) ∧
    ∀ others : List Coordinates, (∀ archive, archive ∈ others ↔ archive ∈ dependencies) →
      c.lookup typeName others = c.lookup typeName dependencies := by
  refine ⟨?_, fun hends => ?_, fun others hothers => ?_⟩
  · rw [← climb_eq_error_iff]
    refine exists_congr fun met => ?_
    unfold lookup
    cases c.climb dependencies (c.definitions.length + 1) [typeName] typeName <;> simp
  · rw [← climb_eq_error_iff] at hends
    cases hc : c.climb dependencies (c.definitions.length + 1) [typeName] typeName with
    | error met => exact absurd ⟨met, hc⟩ hends
    | ok found =>
      have hchain := (Climb.start c dependencies typeName).derivation (by simp) hc
      refine ⟨found.1, found.2, _, hchain, ?_,
        folds_foldl (fun d hd => h.distinct d (hchain.mem d hd)) typeName found.2⟩
      rw [lookup, hc]
  · rw [lookup, lookup, climb_congr hothers]

/-- An archive that defines an application on top of a root type. -/
def basicTypes : Json := .obj [
  ("archive", .obj [("name", .str "basic"), ("version", .str "1")]),
  ("node_types", .obj [
    ("Root", .obj [("interfaces", .obj [("Standard", .obj [
      ("create", .str "root.sh"), ("start", .str "idle.sh")])])]),
    ("App", .obj [("derived_from", .str "Root"),
      ("interfaces", .obj [("Standard", .obj [("start", .str "app.sh")])])])])]

/-- A later archive that turns the hierarchy of `basicTypes` upside down. -/
def turnedTypes : Json := .obj [
  ("archive", .obj [("name", .str "turned"), ("version", .str "2")]),
  ("node_types", .obj [("Root", .obj [("derived_from", .str "App")])])]

/-- The catalog of both archives. -/
def turnedCatalog : TypeCatalog := ((empty.merge basicTypes).2.merge turnedTypes).2

theorem built_turnedCatalog : turnedCatalog.Built := by
  refine .merge (.merge .empty ?_) ?_ <;> decide

/-- With the first archive among the dependencies the application is derived from the root type,
however often it is named. Without it the chain comes back to the application. -/
theorem lookup_app_turnedCatalog : turnedCatalog.Built ∧
    turnedCatalog.Revisits [] "App" ∧
    (∃ ds parents p, turnedCatalog.Derivation [⟨"basic", "1"⟩] "App" ds parents ∧
      turnedCatalog.lookup "App" [⟨"basic", "1"⟩] = .ok p ∧ p.Folds "App" ds parents) ∧
    turnedCatalog.lookup "App" [⟨"basic", "1"⟩, ⟨"basic", "1"⟩] =
      turnedCatalog.lookup "App" [⟨"basic", "1"⟩] := by
  have hwithout := lookup_folds_derivation built_turnedCatalog [] "App"
  have hwith := lookup_folds_derivation built_turnedCatalog [⟨"basic", "1"⟩] "App"
  have hrefused : turnedCatalog.lookup "App" [] =
      .error (.compile (.cyclicTypeHierarchy ["App", "Root", "App"])) := rfl
  have hfound : (turnedCatalog.lookup "App" [⟨"basic", "1"⟩]).isOk = true := rfl
  refine ⟨built_turnedCatalog, hwithout.1.1 ⟨_, hrefused⟩, hwith.2.1 ?_, hwith.2.2 _ (by simp)⟩
  rw [← hwith.1]
  rintro ⟨met, hmet⟩
  rw [hmet] at hfound
  cases hfound

end TypeCatalog

end DeployPlan
