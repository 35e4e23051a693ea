import DeployPlan.Proofs.Topology.Grammar
import Mathlib.Data.List.Forall2
import Mathlib.Logic.Relation

/-!
# Rewriting of topology documents

Much of a topology can be written in two ways, in short and in full. A rewriting takes one place of
a document from one way to the other: an entry of a list, or a field of a map at any depth where
topologies are read.
-/
namespace DeployPlan

namespace Entries

variable {α : Type} {R : String → α → α → Prop} {es es' : List (String × α)}

/-- Entries of which one value is changed. -/
inductive ChangesOne (R : String → α → α → Prop) : List (String × α) → List (String × α) → Prop
  | value (before after : List (String × α)) {name : String} {v w : α} (change : R name v w) :
      ChangesOne R (before ++ (name, v) :: after) (before ++ (name, w) :: after)

namespace ChangesOne

/-- What stands under a name is the same, or it is what is changed. -/
theorem get? (h : ChangesOne R es es') (name : String) :
    Entries.get? name es = Entries.get? name es' ∨
      ∃ v w, Entries.get? name es = some v ∧ Entries.get? name es' = some w ∧ R name v w := by
  obtain ⟨before, after, change⟩ := h
  induction before with
  | nil =>
    rw [List.nil_append, List.nil_append, Entries.get?, Entries.get?]
    split
    · next heq => exact .inr ⟨_, _, rfl, rfl, heq ▸ change⟩
    · exact .inl rfl
  | cons e before ih =>
    rw [List.cons_append, List.cons_append, Entries.get?, Entries.get?]
    split
    · exact .inl rfl
    · exact ih

theorem get?_eq (h : ChangesOne R es es') {names : List String}
    (hR : ∀ name v w, R name v w → name ∈ names) {name : String} (hname : name ∉ names) :
    Entries.get? name es = Entries.get? name es' := by
  rcases h.get? name with heq | ⟨v, w, -, -, change⟩
  · exact heq
  · exact absurd (hR name v w change) hname

theorem first?_eq (h : ChangesOne R es es') {names : List String}
    (hR : ∀ name v w, R name v w → name ∈ names) {keys : List String}
    (hkeys : ∀ key ∈ keys, key ∉ names) : first? keys es = first? keys es' := by
  unfold first?
  induction keys with
  | nil => rfl
  | cons key keys ih =>
    rw [List.forall_mem_cons] at hkeys
    rw [List.findSome?_cons, List.findSome?_cons, h.get?_eq hR hkeys.1, ih hkeys.2]

theorem forall₂ {Q : String × α → String × α → Prop} (h : ChangesOne R es es')
    (hsame : ∀ e, Q e e) (hchange : ∀ name v w, R name v w → Q (name, v) (name, w)) :
    List.Forall₂ Q es es' := by
  obtain ⟨before, after, change⟩ := h
  have hsame' (es : List (String × α)) : List.Forall₂ Q es es :=
    List.forall₂_same.2 fun e _ => hsame e
  exact List.rel_append (hsame' before) (.cons (hchange _ _ _ change) (hsame' after))

theorem map_eq {β : Type} {f : String × α → β} (h : ChangesOne R es es')
    (hchange : ∀ name v w, R name v w → f (name, v) = f (name, w)) : es.map f = es'.map f := by
  obtain ⟨before, after, change⟩ := h
  simp only [List.map_append, List.map_cons, hchange _ _ _ change]

theorem mapM_eq {β : Type} {f : String × α → Except Failure β} (h : ChangesOne R es es')
    (hchange : ∀ name v w, R name v w → f (name, v) = f (name, w)) : es.mapM f = es'.mapM f := by
  obtain ⟨before, after, change⟩ := h
  simp only [List.mapM_append, List.mapM_cons, hchange _ _ _ change]

theorem filter (h : ChangesOne R es es') (p : String → Bool) :
    es.filter (fun e => p e.1) = es'.filter (fun e => p e.1) ∨
      ChangesOne R (es.filter fun e => p e.1) (es'.filter fun e => p e.1) := by
  obtain ⟨before, after, change⟩ := h
  rename_i name v w
  rw [List.filter_append, List.filter_append]
  cases hp : p name with
  | false =>
    rw [List.filter_cons_of_neg (by simp [hp]), List.filter_cons_of_neg (by simp [hp])]
    exact .inl rfl
  | true =>
    rw [List.filter_cons_of_pos (by simp [hp]), List.filter_cons_of_pos (by simp [hp])]
    exact .inr (.value _ _ change)

end ChangesOne

end Entries

theorem Fields.text?_eq {R : String → Json → Json → Prop} {fields fields' : Fields}
    (h : Entries.ChangesOne R fields fields') {names : List String}
    (hR : ∀ name v w, R name v w → name ∈ names) {keys : List String}
    (hkeys : ∀ key ∈ keys, key ∉ names) : Fields.text? keys fields = Fields.text? keys fields' := by
  rw [Fields.text?, Fields.text?, h.first?_eq hR hkeys]

namespace Topology

open Entries (ChangesOne)

/-- An object of which one field is changed. -/
inductive InObject (R : String → Json → Json → Prop) : Json → Json → Prop
  | field {fields fields' : Fields} (change : ChangesOne R fields fields') :
      InObject R (.obj fields) (.obj fields')

/-- A change of what stands under one name. -/
def Under (place : String) (R : Json → Json → Prop) (name : String) (v w : Json) : Prop :=
  name = place ∧ R v w

/-- The script of an operation, and the artifact in full. -/
inductive ScriptRewrite : Json → Json → Prop
  | file (reference : String) : ScriptRewrite (.str reference) (.obj [("file", .str reference)])

inductive OperationRewrite : Json → Json → Prop
  | script (reference : String) :
      OperationRewrite (.str reference) (.obj [("implementation", .str reference)])
  | implementation {v w : Json} (change : InObject (Under "implementation" ScriptRewrite) v w) :
      OperationRewrite v w

/-- Under `operations` of these fields stands no map. -/
def ListsNoOperations (fields : Fields) : Prop :=
  ∀ ops, Entries.get? "operations" fields ≠ some (.obj ops)

/-- The body of an interface. Where its own fields are the operations, one that is named
`operations` stays as it is: a map there would list the operations. -/
inductive BodyRewrite : Json → Json → Prop
  | own {fields fields' : Fields} (own : ListsNoOperations fields)
      (change : ChangesOne (fun name v w => name ≠ "operations" ∧ OperationRewrite v w)
        fields fields') : BodyRewrite (.obj fields) (.obj fields')
  | listed {fields fields' ops : Fields}
      (listed : Entries.get? "operations" fields = some (.obj ops))
      (change : ChangesOne (Under "operations" (InObject fun _ => OperationRewrite))
        fields fields') : BodyRewrite (.obj fields) (.obj fields')
  | unlist {fields ops : Fields} (listed : Entries.get? "operations" fields = some (.obj ops))
      (own : ListsNoOperations ops) : BodyRewrite (.obj fields) (.obj ops)

def InterfacesRewrite : Json → Json → Prop := InObject fun _ => BodyRewrite

inductive ShorthandRewrite : Json → Json → Prop
  | target (target : String) : ShorthandRewrite (.str target) (.obj [("node", .str target)])
  | interfaces {v w : Json} (change : InObject (Under "interfaces" InterfacesRewrite) v w) :
      ShorthandRewrite v w

/-- A requirement entry, and the entries that it becomes. -/
inductive EntryRewrite : Json → List Json → Prop
  | field {v w : Json} (change : InObject (fun _ => ShorthandRewrite) v w) : EntryRewrite v [w]
  | split (fields : Fields) : EntryRewrite (.obj fields) (fields.map fun f => .obj [f])

def RelationshipRewrite : Json → Json → Prop := InObject (Under "interfaces" InterfacesRewrite)

inductive NodeFieldRewrite (name : String) : Json → Json → Prop
  | requirements (under : name = "requirements") (before after : List Json) {entry : Json}
      {entries : List Json} (change : EntryRewrite entry entries) :
      NodeFieldRewrite name (.arr (before ++ entry :: after)) (.arr (before ++ (entries ++ after)))
  | relationships (under : name = "relationships") {v w : Json}
      (change : InObject (fun _ => RelationshipRewrite) v w) : NodeFieldRewrite name v w
  | interfaces (under : name = "interfaces") {v w : Json} (change : InterfacesRewrite v w) :
      NodeFieldRewrite name v w

def NodeRewrite : Json → Json → Prop := InObject NodeFieldRewrite

/-- The kind of a policy is behaviour: it says so, or it says nothing and is not named after the
other kind. -/
inductive IsBehavior (policy : Fields) : Prop
  | stated (kind : Fields.text? ["kind"] policy = some "behavior")
  | implied (kind : Fields.text? ["kind"] policy = none)
      (name : Fields.text? ["name"] policy ≠ some "location")

/-- The map that holds the data of a policy. -/
def HoldsData (policy data : Fields) : Prop :=
  Entries.first? ["data", "properties"] policy = some (.obj data)

/-- A policy without a type, whose data has a scalar `type`, and the policy with that type, and
without it in its data. -/
inductive MovesType (policy policy' : Fields) : Prop
  | mk {v : Json} {data data' : Fields}
      (name : Entries.get? "name" policy = Entries.get? "name" policy')
      (kind : Entries.get? "kind" policy = Entries.get? "kind" policy')
      (untyped : Fields.text? ["type"] policy = none) (held : HoldsData policy data)
      (type : Entries.get? "type" data = some v) (scalar : v.IsScalar)
      (typed : Entries.get? "type" policy' = some v) (left : HoldsData policy' data')
      (taken : data.Perm (("type", v) :: data'))

/-- A policy with the name of its place, unless it has a name. -/
def named (place : String) (policy : Fields) : Fields :=
  if Entries.has "name" policy then policy else policy ++ [("name", .str place)]

/-- A policy in a map of policies. -/
inductive NamedPolicyRewrite (place : String) : Json → Json → Prop
  | moveType {policy policy' : Fields} (behavior : IsBehavior (named place policy))
      (moves : MovesType policy policy') : NamedPolicyRewrite place (.obj policy) (.obj policy')

inductive PoliciesRewrite : Json → Json → Prop
  | listed (before after : List Json) {policy policy' : Fields} (behavior : IsBehavior policy)
      (moves : MovesType policy policy') : PoliciesRewrite
        (.arr (before ++ .obj policy :: after)) (.arr (before ++ .obj policy' :: after))
  | named {v w : Json} (change : InObject NamedPolicyRewrite v w) : PoliciesRewrite v w
  | list (policies : Fields) : PoliciesRewrite (.obj policies)
      (.arr (policies.map fun (place, policy) => namedPolicy place policy))

def GroupRewrite : Json → Json → Prop := InObject (Under "policies" PoliciesRewrite)

inductive TemplateRewrite (name : String) : Json → Json → Prop
  | nodes (under : name = "node_templates") {v w : Json}
      (change : InObject (fun _ => NodeRewrite) v w) : TemplateRewrite name v w
  | groups (under : name = "groups") {v w : Json}
      (change : InObject (fun _ => GroupRewrite) v w) : TemplateRewrite name v w

/-- The names of the fields of a template. -/
def templateNames : List String := ["node_templates", "groups"]

/-- A document with its template at the top, and one with it below `topology_template`. -/
structure Nests (root root' template : Fields) : Prop where
  absent : Entries.get? "topology_template" root = none
  nested : Entries.get? "topology_template" root' = some (.obj template)
  moved : ∀ name ∈ templateNames, Entries.get? name root = Entries.get? name template
  kept : ∀ name, name ∉ templateNames → name ≠ "topology_template" →
    Entries.get? name root = Entries.get? name root'

/-- A document, rewritten at one place. -/
inductive Rewrite : Json → Json → Prop
  | nest {root root' template : Fields} (h : Nests root root' template) :
      Rewrite (.obj root) (.obj root')
  | template {v w : Json} (change : InObject TemplateRewrite v w) : Rewrite v w
  | nested {v w : Json}
      (change : InObject (Under "topology_template" (InObject TemplateRewrite)) v w) : Rewrite v w

end Topology

end DeployPlan
