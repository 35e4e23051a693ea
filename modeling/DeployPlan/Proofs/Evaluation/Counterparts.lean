import DeployPlan.Proofs.Naming.Values
import DeployPlan.Proofs.Related

/-!
# Scenes of which evaluation reads the same

Of a node evaluation reads the id, the type, the properties and what it requires. Scenes that agree
on these, node by node, and on what their types say of properties have the same scopes and evaluate
a value alike, as long as its entity keys denote nodes that agree.
-/
namespace DeployPlan

/-- Nodes of which evaluation reads the same. -/
structure NodeTemplate.Counterpart (n n' : NodeTemplate) : Prop where
  id : n'.id = n.id
  nodeType : n'.nodeType = n.nodeType
  properties : n'.properties = n.properties
  requirements : n'.requirements = n.requirements
  relationships : n'.relationships = n.relationships

namespace NodeTemplate.Counterpart

variable {n n' : NodeTemplate}

theorem hostParent? (h : n.Counterpart n') : n'.hostParent? = n.hostParent? := by
  unfold NodeTemplate.hostParent? hostTarget? requiresHost NodeTemplate.relationshipFor?
    hostProperty?
  rw [h.requirements, h.relationships, h.properties]

theorem relationshipFor? (h : n.Counterpart n') (requirement : String) :
    n'.relationshipFor? requirement = n.relationshipFor? requirement := by
  rw [NodeTemplate.relationshipFor?, NodeTemplate.relationshipFor?, h.relationships]

end NodeTemplate.Counterpart

/-- Topologies whose nodes are counterparts, one by one. -/
def Topology.Counterpart (t t' : Topology) : Prop :=
  List.Forall₂ NodeTemplate.Counterpart t.nodes t'.nodes

namespace Topology.Counterpart

variable {t t' : Topology}

theorem node? (h : t.Counterpart t') (id : String) :
    Option.Rel NodeTemplate.Counterpart (t.node? id) (t'.node? id) :=
  rel_find? (List.forall₂_reverse_iff.2 h) fun n n' hn => by rw [hn.id]

theorem has (h : t.Counterpart t') (id : String) : t'.has id = t.has id := by
  rw [Topology.has, Topology.has]
  rcases rel_cases (h.node? id) with ⟨hn, hn'⟩ | ⟨n, n', hn, hn', -⟩
  · rw [hn, hn']
  · rw [hn, hn', Option.isSome_some, Option.isSome_some]

theorem placements (h : t.Counterpart t') : t'.placements = t.placements := by
  unfold Topology.Counterpart at h
  unfold Topology.placements
  generalize t.nodes = nodes at h ⊢
  generalize t'.nodes = nodes' at h ⊢
  induction h with
  | nil => rfl
  | cons hn _ ih => rw [List.filterMap_cons, List.filterMap_cons, hn.hostParent?, hn.id, ih]

theorem parent? (h : t.Counterpart t') (id : String) : t'.parent? id = t.parent? id := by
  rw [Topology.parent?, Topology.parent?, h.placements]

theorem climb (h : t.Counterpart t') (depth : Nat) (visited : List String) (id : String) :
    t'.climb depth visited id = t.climb depth visited id := by
  induction depth generalizing visited id with
  | zero => rfl
  | succ depth ih => simp only [Topology.climb, h.parent?, h.has, ih]

theorem topmost? (h : t.Counterpart t') (id : String) : t'.topmost? id = t.topmost? id := by
  rw [Topology.topmost?, Topology.topmost?, h.has, h.climb, h.length_eq]

theorem nodeScope (h : t.Counterpart t') (id : String) : t'.nodeScope id = t.nodeScope id := by
  rw [Topology.nodeScope, Topology.nodeScope, h.has, h.topmost?]

theorem relationshipScope (h : t.Counterpart t') (source : String) (r : Relationship) :
    t'.relationshipScope source r = t.relationshipScope source r := by
  rw [Topology.relationshipScope, Topology.relationshipScope, h.has]

end Topology.Counterpart

/-- Scenes whose nodes are counterparts, one by one, and whose types say the same of properties. -/
structure Scene.Counterpart (s s' : Scene) : Prop where
  topology : s.topology.Counterpart s'.topology
  properties : ∀ typeName, (s'.profile typeName).properties = (s.profile typeName).properties

namespace Scene

variable {s s' : Scene}

theorem Counterpart.rawProperty? (h : s.Counterpart s') (id property : String) :
    s'.rawProperty? id property = s.rawProperty? id property := by
  rw [Scene.rawProperty?, Scene.rawProperty?]
  rcases rel_cases (h.topology.node? id) with ⟨hn, hn'⟩ | ⟨_, _, hn, hn', hrel⟩
  · rw [hn, hn']
  · simp only [hn, hn', hrel.properties, hrel.nodeType, h.properties]

theorem Counterpart.propertyNames (h : s.Counterpart s') (id : String) :
    s'.propertyNames id = s.propertyNames id := by
  rw [Scene.propertyNames, Scene.propertyNames]
  rcases rel_cases (h.topology.node? id) with ⟨hn, hn'⟩ | ⟨_, _, hn, hn', hrel⟩
  · rw [hn, hn']
  · simp only [hn, hn', hrel.properties, hrel.nodeType, h.properties]

theorem Counterpart.declaredProperties (h : s.Counterpart s') :
    Eval.declaredProperties s' = Eval.declaredProperties s := by
  unfold Eval.declaredProperties
  have hnodes := h.topology
  unfold Topology.Counterpart at hnodes
  generalize s.topology.nodes = nodes at hnodes ⊢
  generalize s'.topology.nodes = nodes' at hnodes ⊢
  generalize 0 = count
  induction hnodes generalizing count with
  | nil => rfl
  | cons hn _ ih =>
    rw [List.foldl_cons, List.foldl_cons, hn.properties, hn.nodeType, h.properties, ih]

/-- A key denotes counterparts in two scenes, whatever the scope. -/
def DenotesIn (s s' : Scene) (key : String) : Prop :=
  ∀ scope, Option.Rel NodeTemplate.Counterpart (s.entity? scope key) (s'.entity? scope key)

end Scene

namespace Eval

variable {s s' : Scene} {scope : Scope} {read : PropertyKey → Eval Resolution}

/-- The target of a requirement is a counterpart, and is missing with the same note. -/
theorem requirementTarget_bind {α : Type} (h : s.Counterpart s') {n n' : NodeTemplate}
    (hn : n.Counterpart n') (requirement : String) {next next' : Option NodeTemplate → Eval α}
    (hnext : ∀ o o', Option.Rel NodeTemplate.Counterpart o o' → next' o' = next o) :
    requirementTarget s' n' requirement >>= next' = requirementTarget s n requirement >>= next := by
  have htarget : Option.Rel NodeTemplate.Counterpart
      ((n.relationshipFor? requirement).bind fun r => s.topology.node? r.target)
      ((n'.relationshipFor? requirement).bind fun r => s'.topology.node? r.target) := by
    rw [hn.relationshipFor?]
    cases n.relationshipFor? requirement with
    | none => exact .none
    | some r => exact h.topology.node? r.target
  unfold requirementTarget
  rcases rel_cases htarget with ⟨ho, ho'⟩ | ⟨m, m', ho, ho', hm⟩
  · simp only [ho, ho', bind_assoc, pure_bind, hn.id, hnext none none .none]
  · simp only [ho, ho', pure_bind, hnext _ _ (.some hm)]

theorem resolveCall_counterpart (h : s.Counterpart s') {call : FunctionCall}
    (hkey : ∀ key ∈ call.entityKey?, s.DenotesIn s' key) :
    resolveCall read s' scope call = resolveCall read s scope call := by
  obtain ⟨name, args⟩ := call
  have hentity {key : String} (hmem : FunctionCall.entityKey? ⟨name, args⟩ = some key) :
      Option.Rel NodeTemplate.Counterpart (s.entity? scope key) (s'.entity? scope key) :=
    hkey key hmem scope
  unfold resolveCall
  by_cases hproperty : name = "get_property"
  · simp only [if_pos hproperty]
    rcases args with _ | ⟨key, _ | ⟨second, _ | ⟨third, _ | _⟩⟩⟩
    case nil | cons.nil | cons.cons.cons.cons => rfl
    all_goals
      rcases rel_cases (@hentity key (by simp [FunctionCall.entityKey?, hproperty])) with
        ⟨hn, hn'⟩ | ⟨n, n', hn, hn', hrel⟩
    case inl | inl => simp only [hn, hn']
    · simp only [hn, hn', hrel.id]
    · simp only [hn, hn']
      refine requirementTarget_bind h hrel second fun o o' ho => ?_
      cases ho with
      | none => rfl
      | some htarget => simp only [htarget.id]
  simp only [if_neg hproperty]
  by_cases hattribute : name = "get_attribute"
  · simp only [if_pos hattribute]
    rcases args with _ | ⟨key, _ | ⟨second, _ | ⟨third, _ | _⟩⟩⟩
    case nil | cons.nil | cons.cons.cons.cons => rfl
    all_goals
      rcases rel_cases (@hentity key (by simp [FunctionCall.entityKey?, hattribute])) with
        ⟨hn, hn'⟩ | ⟨n, n', hn, hn', hrel⟩
    case inl | inl => simp only [hn, hn']
    · simp only [hn, hn', hrel.id]
    · simp only [hn, hn']
      refine requirementTarget_bind h hrel second fun o o' ho => ?_
      cases ho with
      | none => rfl
      | some htarget => simp only [htarget.id]
  · simp only [if_neg hattribute]

mutual

theorem resolveWith_counterpart (h : s.Counterpart s') {v : PropertyValue}
    (hkeys : ∀ key ∈ v.entityKeys, s.DenotesIn s' key) :
    resolveWith read s' scope v = resolveWith read s scope v := by
  match v with
  | .scalar _ | .complex _ | .list _ | .other _ => simp only [resolveWith]
  | .concat parts =>
    have hparts : resolveParts read s' scope .empty parts =
        resolveParts read s scope .empty parts := resolveParts_counterpart h .empty hkeys
    simp only [resolveWith, hparts]
  | .call c =>
    simp only [resolveWith]
    exact resolveCall_counterpart h fun key hkey => hkeys key (Option.mem_toList.2 hkey)

theorem resolveParts_counterpart (h : s.Counterpart s') (format : FormatText)
    {parts : List PropertyValue}
    (hkeys : ∀ key ∈ PropertyValue.entityKeysOf parts, s.DenotesIn s' key) :
    resolveParts read s' scope format parts = resolveParts read s scope format parts := by
  match parts with
  | [] => simp only [resolveParts]
  | part :: parts =>
    rw [PropertyValue.entityKeysOf] at hkeys
    have hpart : resolveWith read s' scope part = resolveWith read s scope part :=
      resolveWith_counterpart h fun key hkey => hkeys key (List.mem_append_left _ hkey)
    have hparts (format : FormatText) : resolveParts read s' scope format parts =
        resolveParts read s scope format parts :=
      resolveParts_counterpart h format fun key hkey => hkeys key (List.mem_append_right _ hkey)
    simp only [resolveParts, hpart, hparts]

end

/-- Reading a property depends on its declared value and how that is evaluated only. -/
theorem readProperty_counterpart (h : s.Counterpart s')
    {evaluate evaluate' : PropertyValue → Eval Resolution} {key : PropertyKey}
    (heval : ∀ v, s.rawProperty? key.node key.property = some v → evaluate' v = evaluate v) :
    readProperty s' evaluate' key = readProperty s evaluate key := by
  unfold readProperty
  rw [h.rawProperty?]
  cases hv : s.rawProperty? key.node key.property with
  | none => rfl
  | some v => simp only [heval v hv]

theorem propertyWithin_counterpart (h : s.Counterpart s')
    (hkeys : ∀ v ∈ s.values, ∀ key ∈ v.entityKeys, s.DenotesIn s' key) (depth : Nat) :
    propertyWithin s' depth = propertyWithin s depth := by
  induction depth with
  | zero => exact funext fun key => readProperty_counterpart h fun _ _ => rfl
  | succ depth ih =>
    funext key
    rw [propertyWithin, propertyWithin, ih, h.topology.nodeScope]
    exact readProperty_counterpart h fun v hv =>
      resolveWith_counterpart h (hkeys v (Scene.mem_values_of_rawProperty? hv))

/-- Properties are evaluated the same when the entity keys of all values denote counterparts. -/
theorem nodeProperty_counterpart (h : s.Counterpart s')
    (hkeys : ∀ v ∈ s.values, ∀ key ∈ v.entityKeys, s.DenotesIn s' key) :
    nodeProperty s' = nodeProperty s := by
  funext key
  rw [nodeProperty, nodeProperty, h.declaredProperties, propertyWithin_counterpart h hkeys]

theorem resolve_counterpart (h : s.Counterpart s')
    (hkeys : ∀ v ∈ s.values, ∀ key ∈ v.entityKeys, s.DenotesIn s' key) {v : PropertyValue}
    (hv : ∀ key ∈ v.entityKeys, s.DenotesIn s' key) : resolve s' scope v = resolve s scope v := by
  rw [resolve, resolve, nodeProperty_counterpart h hkeys, resolveWith_counterpart h hv]

theorem nodeProperties_counterpart (h : s.Counterpart s')
    (hkeys : ∀ v ∈ s.values, ∀ key ∈ v.entityKeys, s.DenotesIn s' key) (id : String) :
    nodeProperties s' id = nodeProperties s id := by
  rw [nodeProperties, nodeProperties, h.propertyNames, nodeProperty_counterpart h hkeys]

end Eval

end DeployPlan
