import DeployPlan.Evaluation
import DeployPlan.Lifecycle

/-!
# References by id

A value refers to nodes through the entity keys of its calls. It refers by id when each of them is a
keyword or the id of a node. The values of a scene are those of its nodes and relationships and
those that its types give properties, attributes and inputs.
-/
namespace DeployPlan

/-- The entity key of a call: the first argument of the functions that read from a node. -/
def FunctionCall.entityKey? (call : FunctionCall) : Option String :=
  if call.name = "get_property" ∨ call.name = "get_attribute" then
    match call.args with
    | [key, _] => some key
    | [key, _, _] => some key
    | _ => none
  else none

namespace PropertyValue

mutual

def entityKeys : PropertyValue → List String
  | .scalar _ => []
  | .complex _ => []
  | .list _ => []
  | .concat parts => entityKeysOf parts
  | .call c => c.entityKey?.toList
  | .other _ => []

def entityKeysOf : List PropertyValue → List String
  | [] => []
  | v :: vs => entityKeys v ++ entityKeysOf vs

end

end PropertyValue

/-- A key is a keyword or the id of a node. -/
def Topology.Identifies (t : Topology) (key : String) : Prop := isKeyword key = true ∨ key ∈ t.ids

instance (t : Topology) (key : String) : Decidable (t.Identifies key) :=
  inferInstanceAs (Decidable (_ ∨ _))

/-- A value refers to nodes by keywords and ids only. -/
def PropertyValue.RefersById (v : PropertyValue) (t : Topology) : Prop :=
  ∀ key ∈ v.entityKeys, t.Identifies key

instance (v : PropertyValue) (t : Topology) : Decidable (v.RefersById t) :=
  inferInstanceAs (Decidable (∀ key ∈ v.entityKeys, _))

def NameMap.held {α : Type} (m : NameMap α) : List α := m.toList.map (·.2)

theorem NameMap.mem_held {α : Type} {m : NameMap α} {name : String} {v : α}
    (h : m[name]? = some v) : v ∈ m.held :=
  List.mem_map.2 ⟨(name, v), Std.ExtTreeMap.mem_toList_iff_getElem?_eq_some.2 h, rfl⟩

def Interface.values (i : Interface) : List PropertyValue :=
  i.operations.flatMap fun op => op.inputs.map (·.2)

def Relationship.values (r : Relationship) : List PropertyValue :=
  r.properties.held ++ r.interfaces.flatMap Interface.values

def NodeTemplate.values (n : NodeTemplate) : List PropertyValue :=
  n.properties.held ++ n.interfaces.flatMap Interface.values ++
    n.relationships.flatMap Relationship.values

/-- The values that a type gives properties, attributes and inputs. -/
def TypeProfile.values (p : TypeProfile) : List PropertyValue :=
  p.properties.held ++ p.attributes.filterMap (·.2) ++ p.interfaces.flatMap Interface.values

/-- The values of a topology's nodes and relationships and of the types they use. -/
def Topology.values (lookup : TypeLookup) (t : Topology) : List PropertyValue :=
  t.nodes.flatMap NodeTemplate.values ++
    (Scene.usedTypes t).flatMap fun name =>
      match lookup name t.dependencies with
      | .ok p => p.values
      | .error _ => []

/-- All values refer to nodes by keywords and ids only. -/
def Topology.RefersById (lookup : TypeLookup) (t : Topology) : Prop :=
  ∀ v ∈ t.values lookup, v.RefersById t

instance (lookup : TypeLookup) (t : Topology) : Decidable (t.RefersById lookup) :=
  inferInstanceAs (Decidable (∀ v ∈ t.values lookup, _))

theorem mem_of_mem_overlayOperation {op other : Operation} {ops : List Operation}
    (h : other ∈ overlayOperation op ops) : other = op ∨ other ∈ ops := by
  induction ops with
  | nil => exact .inl (List.mem_singleton.1 h)
  | cons base rest ih =>
    rw [overlayOperation] at h
    split at h
    · rcases List.mem_cons.1 h with rfl | h
      · split
        · exact .inl rfl
        · exact .inr List.mem_cons_self
      · exact .inr (List.mem_cons_of_mem base h)
    · rcases List.mem_cons.1 h with rfl | h
      · exact .inr List.mem_cons_self
      · exact (ih h).imp_right (List.mem_cons_of_mem base)

theorem exists_interface_of_mem_operationsUnder {op : Operation} {aliases : List String}
    {interfaces : List Interface} (h : op ∈ operationsUnder aliases interfaces) :
    ∃ i ∈ interfaces, op ∈ i.operations := by
  unfold operationsUnder at h
  cases hi : findInterface? aliases interfaces with
  | none =>
    rw [hi] at h
    exact absurd h List.not_mem_nil
  | some i =>
    rw [hi] at h
    obtain ⟨name, -, hname⟩ := List.exists_of_findSome?_eq_some hi
    exact ⟨i, List.mem_of_find?_eq_some hname, h⟩

theorem exists_interface_of_mem_mergedOperations {op : Operation} {aliases : List String}
    {typeLevel own : List Interface} (h : op ∈ mergedOperations typeLevel own aliases) :
    ∃ i, (i ∈ typeLevel ∨ i ∈ own) ∧ op ∈ i.operations := by
  have hmem : op ∈ operationsUnder aliases typeLevel ∨ op ∈ operationsUnder aliases own := by
    unfold mergedOperations at h
    generalize operationsUnder aliases typeLevel = base at h ⊢
    generalize operationsUnder aliases own = later at h ⊢
    induction later generalizing base with
    | nil => exact .inl h
    | cons first later ih =>
      rcases ih _ h with h | h
      · rcases mem_of_mem_overlayOperation h with rfl | h
        · exact .inr List.mem_cons_self
        · exact .inl h
      · exact .inr (List.mem_cons_of_mem first h)
  rcases hmem with h | h
  · obtain ⟨i, hi, hop⟩ := exists_interface_of_mem_operationsUnder h
    exact ⟨i, .inl hi, hop⟩
  · obtain ⟨i, hi, hop⟩ := exists_interface_of_mem_operationsUnder h
    exact ⟨i, .inr hi, hop⟩

theorem Interface.mem_values {i : Interface} {op : Operation} (hop : op ∈ i.operations)
    {input : String × PropertyValue} (h : input ∈ op.inputs) : input.2 ∈ i.values :=
  List.mem_flatMap.2 ⟨op, hop, List.mem_map_of_mem h⟩

namespace Scene

/-- The values of a scene's nodes and relationships and of its types. -/
def values (s : Scene) : List PropertyValue :=
  s.topology.nodes.flatMap NodeTemplate.values ++ s.profiles.flatMap (·.2.values)

/-- All values refer to nodes by keywords and ids only. -/
def RefersById (s : Scene) : Prop := ∀ v ∈ s.values, v.RefersById s.topology

variable {s : Scene} {v : PropertyValue}

theorem mem_values_of_node {n : NodeTemplate} (hn : n ∈ s.topology.nodes) (h : v ∈ n.values) :
    v ∈ s.values :=
  List.mem_append_left _ (List.mem_flatMap.2 ⟨n, hn, h⟩)

theorem mem_values_of_relationship {n : NodeTemplate} (hn : n ∈ s.topology.nodes)
    {r : Relationship} (hr : r ∈ n.relationships) (h : v ∈ r.values) : v ∈ s.values :=
  mem_values_of_node hn (List.mem_append_right _ (List.mem_flatMap.2 ⟨r, hr, h⟩))

/-- The profile of a type is one of the scene's or says nothing. -/
theorem mem_values_of_profile {typeName : String} (h : v ∈ (s.profile typeName).values) :
    v ∈ s.values := by
  unfold profile at h
  cases hp : Entries.get? typeName s.profiles with
  | none =>
    rw [hp] at h
    exact absurd h List.not_mem_nil
  | some p =>
    rw [hp] at h
    exact List.mem_append_right _ (List.mem_flatMap.2 ⟨_, Entries.mem_of_get? hp, h⟩)

/-- The inputs of merged operations are values of the type or of the instance. -/
theorem mem_values_of_input {typeName : String} {own : List Interface}
    (hown : ∀ i ∈ own, ∀ w ∈ i.values, w ∈ s.values) {aliases : List String} {op : Operation}
    (hop : op ∈ mergedOperations (s.profile typeName).interfaces own aliases)
    {input : String × PropertyValue} (h : input ∈ op.inputs) : input.2 ∈ s.values := by
  obtain ⟨i, hi, hmem⟩ := exists_interface_of_mem_mergedOperations hop
  rcases hi with hi | hi
  · exact mem_values_of_profile
      (List.mem_append_right _ (List.mem_flatMap.2 ⟨i, hi, Interface.mem_values hmem h⟩))
  · exact hown i hi _ (Interface.mem_values hmem h)

theorem mem_values_of_rawProperty? {id property : String}
    (h : s.rawProperty? id property = some v) : v ∈ s.values := by
  unfold rawProperty? at h
  cases hn : s.topology.node? id with
  | none =>
    rw [hn] at h
    cases h
  | some n =>
    rw [hn] at h
    rcases Option.or_eq_some_iff.1 h with hown | ⟨-, htype⟩
    · exact mem_values_of_node (Topology.mem_of_node? hn)
        (List.mem_append_left _ (List.mem_append_left _ (NameMap.mem_held hown)))
    · exact mem_values_of_profile
        (List.mem_append_left _ (List.mem_append_left _ (NameMap.mem_held htype)))

end Scene

end DeployPlan
