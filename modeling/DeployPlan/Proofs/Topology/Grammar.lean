import DeployPlan.Proofs.Build.Steps
import DeployPlan.Proofs.Related
import DeployPlan.Proofs.TypeCatalog.Documents

/-!
# The grammar of topology documents

A document is refused as a topology exactly when one of a few shapes in it is wrong, and the refusal
tells which one. What has any other shape is passed over. The nodes of a topology that is read are
the fields of one map of the document, and each node requires what its relationships satisfy.
-/
namespace DeployPlan

/-- A scalar: a text, a number or a truth value. -/
inductive Json.IsScalar : Json → Prop
  | str (text : String) : IsScalar (.str text)
  | num (n : Number) : IsScalar (.num n)
  | bool (b : Bool) : IsScalar (.bool b)

theorem Json.scalarText?_eq_none_iff {v : Json} : v.scalarText? = none ↔ ¬ v.IsScalar := by
  cases v with
  | str text => exact ⟨nofun, fun h => absurd (.str text) h⟩
  | num n => exact ⟨nofun, fun h => absurd (.num n) h⟩
  | bool b => cases b <;> exact ⟨nofun, fun h => absurd (.bool _) h⟩
  | null | arr _ | obj _ => exact ⟨fun _ => nofun, fun _ => rfl⟩

/-- Under the first of the names that is present stands a scalar. -/
def Fields.HasScalar (names : List String) (fields : Fields) : Prop :=
  ∃ v, Entries.first? names fields = some v ∧ v.IsScalar

theorem Fields.text?_eq_none_iff {names : List String} {fields : Fields} :
    Fields.text? names fields = none ↔ ¬ Fields.HasScalar names fields := by
  unfold Fields.text? HasScalar
  cases Entries.first? names fields with
  | none => simp
  | some v => simp [Json.scalarText?_eq_none_iff]

theorem Fields.hasScalar_of_text? {names : List String} {fields : Fields} {text : String}
    (h : Fields.text? names fields = some text) : Fields.HasScalar names fields := by
  by_contra hnone
  rw [← text?_eq_none_iff, h] at hnone
  cases hnone

namespace Topology

/-- A reading that refuses what is wrong, for one of the reasons that something is wrong, and reads
what is good when nothing is. -/
structure Judges {α : Type} (wrong : String → Prop) (good : α → Prop) (r : Except Failure α) :
    Prop where
  ok : ∀ a, r = .ok a → good a ∧ ∀ reason, ¬ wrong reason
  error : ∀ f, r = .error f → ∃ reason, wrong reason ∧ f = .compile (.invalidTopology reason)

namespace Judges

variable {α β : Type} {wrong first : String → Prop} {good : α → Prop} {good' : β → Prop}

theorem reads {a : α} (h : good a) (hnone : ∀ reason, ¬ wrong reason) :
    Judges wrong good (.ok a) where
  ok b hb := by
    cases hb
    exact ⟨h, hnone⟩
  error f hf := by cases hf

theorem refuses {reason : String} (h : wrong reason) :
    Judges wrong good (refuse (α := α) reason) where
  ok a ha := by cases ha
  error f hf := by
    cases hf
    exact ⟨reason, h, rfl⟩

/-- What is wrong may be said in other words, and less of what is good. -/
theorem retell {r : Except Failure α} {less : α → Prop} (h : Judges first good r)
    (hwrong : ∀ reason, first reason ↔ wrong reason) (hgood : ∀ a, good a → less a) :
    Judges wrong less r where
  ok a ha := by
    obtain ⟨hgood', hnone⟩ := h.ok a ha
    exact ⟨hgood a hgood', fun reason hreason => hnone reason ((hwrong reason).2 hreason)⟩
  error f hf := by
    obtain ⟨reason, hreason, heq⟩ := h.error f hf
    exact ⟨reason, (hwrong reason).1 hreason, heq⟩

/-- Something is wrong exactly when the reading is refused. -/
theorem exists_error_iff {r : Except Failure α} (h : Judges wrong good r) :
    (∃ f, r = .error f) ↔ ∃ reason, wrong reason := by
  constructor
  · rintro ⟨f, hf⟩
    obtain ⟨reason, hreason, -⟩ := h.error f hf
    exact ⟨reason, hreason⟩
  · rintro ⟨reason, hreason⟩
    cases r with
    | error f => exact ⟨f, rfl⟩
    | ok a => exact absurd hreason ((h.ok a rfl).2 reason)

/-- A reading of two parts, what is wrong with the first one being wrong with the whole. -/
theorem andThen {x : Except Failure α} {f : α → Except Failure β} (hx : Judges first good x)
    (hfirst : ∀ reason, first reason → wrong reason)
    (hf : ∀ a, good a → (∀ reason, ¬ first reason) → Judges wrong good' (f a)) :
    Judges wrong good' (x >>= f) := by
  cases x with
  | error e =>
    refine ⟨nofun, fun e' he' => ?_⟩
    cases he'
    obtain ⟨reason, hreason, he⟩ := hx.error e rfl
    exact ⟨reason, hfirst reason hreason, he⟩
  | ok a =>
    obtain ⟨hgood, hnone⟩ := hx.ok a rfl
    exact hf a hgood hnone

/-- Parts in turn: something is wrong when it is with one of them. -/
theorem mapM {wrong : α → String → Prop} {good : α → β → Prop} {f : α → Except Failure β}
    {as : List α} (h : ∀ a ∈ as, Judges (wrong a) (good a) (f a)) :
    Judges (fun reason => ∃ a ∈ as, wrong a reason) (List.Forall₂ good as) (as.mapM f) := by
  induction as with
  | nil => exact reads .nil fun _ => nofun
  | cons a as ih =>
    rw [List.forall_mem_cons] at h
    rw [List.mapM_cons]
    refine h.1.andThen (fun reason hreason => ⟨a, List.mem_cons_self, hreason⟩) fun b hb hnone => ?_
    refine (ih h.2).andThen ?_ fun bs hbs hrest => ?_
    · rintro reason ⟨other, hother, hreason⟩
      exact ⟨other, List.mem_cons_of_mem a hother, hreason⟩
    · refine reads (.cons hb hbs) ?_
      rintro reason ⟨other, hother, hreason⟩
      rcases List.mem_cons.1 hother with rfl | hother
      · exact hnone reason hreason
      · exact hrest reason ⟨other, hother, hreason⟩

end Judges

/-- What is wrong with a field of a requirement entry. -/
inductive ShorthandFault (node name : String) : Json → String → Prop
  /-- A map in which the first of `node` and `target` that is present is no scalar. -/
  | untargeted {body : Fields} (target : ¬ Fields.HasScalar ["node", "target"] body) :
      ShorthandFault node name (.obj body) s!"requirement {name} on node {node} has no target node"
  /-- Neither a text nor a map. -/
  | shape {v : Json} (text : ∀ target, v ≠ .str target) (map : ∀ body, v ≠ .obj body) :
      ShorthandFault node name v s!"requirement {name} on node {node} must name a target"

inductive RequirementFault (node : String) : Json → String → Prop
  /-- One of its fields is wrong. -/
  | field {fields : Fields} {name reason : String} {spec : Json} (declared : (name, spec) ∈ fields)
      (fault : ShorthandFault node name spec reason) : RequirementFault node (.obj fields) reason
  /-- Neither a text nor a map. -/
  | shape {v : Json} (text : ∀ name, v ≠ .str name) (map : ∀ fields, v ≠ .obj fields) :
      RequirementFault node v s!"unsupported requirement entry on node {node}: {v.compact}"

inductive RelationshipFault (node id : String) : Json → String → Prop
  /-- A map in which the first of `target` and `node` that is present is no scalar. -/
  | untargeted {fields : Fields} (target : ¬ Fields.HasScalar ["target", "node"] fields) :
      RelationshipFault node id (.obj fields) s!"relationship {id} on node {node} has no target"
  /-- No map. -/
  | shape {v : Json} (map : ∀ fields, v ≠ .obj fields) :
      RelationshipFault node id v s!"relationship {id} on node {node} must be a map"

inductive NodeTemplateFault (id : String) : Json → String → Prop
  /-- No map. -/
  | shape {v : Json} (map : ∀ fields, v ≠ .obj fields) :
      NodeTemplateFault id v s!"node template {id} must be a map"
  /-- A map without a scalar `type`. -/
  | untyped {fields : Fields} (type : ¬ Fields.HasScalar ["type"] fields) :
      NodeTemplateFault id (.obj fields) s!"node template {id} has no type"
  /-- An entry of the list `requirements` is wrong. -/
  | requirement {fields : Fields} {entries : List Json} {entry : Json} {reason : String}
      (listed : Entries.get? "requirements" fields = some (.arr entries)) (member : entry ∈ entries)
      (fault : RequirementFault id entry reason) : NodeTemplateFault id (.obj fields) reason
  /-- A field of the map `relationships` is wrong. -/
  | relationship {fields declared : Fields} {relId reason : String} {rel : Json}
      (listed : Entries.get? "relationships" fields = some (.obj declared))
      (member : (relId, rel) ∈ declared) (fault : RelationshipFault id relId rel reason) :
      NodeTemplateFault id (.obj fields) reason

/-- What is wrong with the policy at a place of a group. -/
inductive PolicyFault (group : String) (index : Nat) : Json → String → Prop
  /-- No map. -/
  | shape {v : Json} (map : ∀ fields, v ≠ .obj fields) :
      PolicyFault group index v s!"policy #{index} of group {group} must be a map"
  /-- A scalar `kind` that is neither of the two kinds. -/
  | kind {fields : Fields} {name kind : String}
      (named : (Fields.text? ["name"] fields).getD s!"{group}-{index}" = name)
      (stated : Fields.text? ["kind"] fields = some kind) (location : kind ≠ "location")
      (behavior : kind ≠ "behavior") : PolicyFault group index (.obj fields)
        s!"policy {name} of group {group} has unknown kind {kind}"

inductive GroupDocumentFault (name : String) : Json → String → Prop
  /-- No map. -/
  | shape {v : Json} (map : ∀ fields, v ≠ .obj fields) :
      GroupDocumentFault name v s!"group {name} must be a map"
  /-- A policy of a list is wrong. -/
  | listed {fields : Fields} {items : List Json} {index : Nat} {policy : Json} {reason : String}
      (policies : Entries.get? "policies" fields = some (.arr items))
      (member : items[index]? = some policy) (fault : PolicyFault name index policy reason) :
      GroupDocumentFault name (.obj fields) reason
  /-- A policy of a map is wrong, under its name there unless it has one. -/
  | named {fields entries : Fields} {index : Nat} {policyName reason : String} {policy : Json}
      (policies : Entries.get? "policies" fields = some (.obj entries))
      (member : entries[index]? = some (policyName, policy))
      (fault : PolicyFault name index (namedPolicy policyName policy) reason) :
      GroupDocumentFault name (.obj fields) reason

/-- The fields of a document that hold node templates and groups: the map `topology_template` when
there is one, else those at the top. -/
inductive HasTemplate (root : Fields) : Fields → Prop
  | nested {fields : Fields} (map : Entries.get? "topology_template" root = some (.obj fields)) :
      HasTemplate root fields
  | top (noMap : ∀ fields, Entries.get? "topology_template" root ≠ some (.obj fields)) :
      HasTemplate root root

inductive NodesFault (template : Fields) : String → Prop
  /-- They are no map. -/
  | shape {v : Json} (present : Entries.get? "node_templates" template = some v)
      (map : ∀ fields, v ≠ .obj fields) : NodesFault template "node_templates must be a map"
  /-- One of them is wrong. -/
  | node {entries : Fields} {id reason : String} {body : Json}
      (present : Entries.get? "node_templates" template = some (.obj entries))
      (member : (id, body) ∈ entries) (fault : NodeTemplateFault id body reason) :
      NodesFault template reason

/-- What is wrong with the groups of a template, if they are a map. -/
inductive GroupsFault (template : Fields) : String → Prop
  /-- One of them is wrong. -/
  | group {entries : Fields} {name reason : String} {body : Json}
      (present : Entries.get? "groups" template = some (.obj entries))
      (member : (name, body) ∈ entries) (fault : GroupDocumentFault name body reason) :
      GroupsFault template reason

inductive DocumentFault : Json → String → Prop
  /-- No map. -/
  | shape {v : Json} (map : ∀ fields, v ≠ .obj fields) :
      DocumentFault v "topology document must be a map"
  /-- The node templates are wrong. -/
  | nodes {root template : Fields} {reason : String} (within : HasTemplate root template)
      (fault : NodesFault template reason) : DocumentFault (.obj root) reason
  /-- The groups are wrong. -/
  | groups {root template : Fields} {reason : String} (within : HasTemplate root template)
      (fault : GroupsFault template reason) : DocumentFault (.obj root) reason

/-- The ids of the nodes of a template: the names in its map of node templates, and none when there
are no node templates. -/
inductive HasNodeIds (template : Fields) : List String → Prop
  | listed {entries : Fields}
      (present : Entries.get? "node_templates" template = some (.obj entries)) :
      HasNodeIds template (Entries.names entries)
  | absent (absent : Entries.get? "node_templates" template = none) : HasNodeIds template []

theorem judges_readShorthand (node name : String) (v : Json) :
    Judges (ShorthandFault node name v) (fun _ => True) (readShorthand node name v) := by
  unfold readShorthand
  split
  · next target =>
    refine .reads trivial fun reason h => ?_
    cases h with
    | shape text map => exact text target rfl
  · next body =>
    split
    · next hnone => exact .refuses (.untargeted (Fields.text?_eq_none_iff.1 hnone))
    · next target htarget =>
      refine .reads trivial fun reason h => ?_
      cases h with
      | untargeted hnone => exact hnone (Fields.hasScalar_of_text? htarget)
      | shape text map => exact map body rfl
  · next htext hmap => exact .refuses (.shape htext hmap)

theorem judges_readRequirement (node : String) (v : Json) :
    Judges (RequirementFault node v) (fun _ => True) (readRequirement node v) := by
  unfold readRequirement
  split
  · next name =>
    refine .reads trivial fun reason h => ?_
    cases h with
    | shape text map => exact text name rfl
  · next fields =>
    refine (Judges.mapM fun f _ => judges_readShorthand node f.1 f.2).andThen ?_ ?_
    · rintro reason ⟨f, hf, hfault⟩
      exact .field hf hfault
    · intro relationships _ hnone
      refine .reads trivial fun reason h => ?_
      cases h with
      | field declared fault => exact hnone reason ⟨_, declared, fault⟩
      | shape text map => exact map fields rfl
  · next htext hmap => exact .refuses (.shape htext hmap)

theorem judges_readRelationship (node id : String) (v : Json) :
    Judges (RelationshipFault node id v) (fun _ => True) (readRelationship node id v) := by
  unfold readRelationship
  split
  · next fields =>
    split
    · next hnone => exact .refuses (.untargeted (Fields.text?_eq_none_iff.1 hnone))
    · next target htarget =>
      refine .reads trivial fun reason h => ?_
      cases h with
      | untargeted hnone => exact hnone (Fields.hasScalar_of_text? htarget)
      | shape map => exact map fields rfl
  · next hmap => exact .refuses (.shape hmap)

/-- Completed requirements are the names and what relationships satisfy. -/
theorem mem_completeRequirements_iff {name : String} {names : List String}
    {relationships : List Relationship} : name ∈ completeRequirements names relationships ↔
      name ∈ names ∨ ∃ r ∈ relationships, r.requirement = name := by
  unfold completeRequirements
  induction relationships generalizing names with
  | nil => simp
  | cons r relationships ih =>
    rw [List.foldl_cons, ih]
    simp only [List.mem_cons, exists_eq_or_imp, ← or_assoc]
    refine or_congr_left ?_
    by_cases hr : r.requirement ∈ names
    · rw [if_pos (by simpa using hr), or_iff_left_of_imp]
      rintro rfl
      exact hr
    · rw [if_neg (by simpa using hr), List.mem_append, List.mem_singleton, eq_comm]

theorem mem_items_iff {name : String} {fields : Fields} {v : Json} :
    v ∈ ((Entries.get? name fields).bind Json.asArray?).getD [] ↔
      ∃ items, Entries.get? name fields = some (.arr items) ∧ v ∈ items := by
  cases Entries.get? name fields with
  | none => simp
  | some w => cases w <;> simp [Json.asArray?]

theorem mem_fields_iff {name : String} {fields : Fields} {f : String × Json} :
    f ∈ ((Entries.get? name fields).bind Json.asObject?).getD [] ↔
      ∃ declared, Entries.get? name fields = some (.obj declared) ∧ f ∈ declared := by
  cases Entries.get? name fields with
  | none => simp
  | some w => cases w <;> simp [Json.asObject?]

/-- The template of an id has that id, and requires what its relationships satisfy. -/
theorem judges_readNode (id : String) (v : Json) :
    Judges (NodeTemplateFault id v)
      (fun n => n.id = id ∧ ∀ r ∈ n.relationships, r.requirement ∈ n.requirements)
      (readNode id v) := by
  unfold readNode
  split
  · next fields =>
    split
    · next hnone => exact .refuses (.untyped (Fields.text?_eq_none_iff.1 hnone))
    · next nodeType htype =>
      refine (Judges.mapM fun entry _ => judges_readRequirement id entry).andThen ?_ ?_
      · rintro reason ⟨entry, hentry, hfault⟩
        obtain ⟨entries, hlisted, hmem⟩ := mem_items_iff.1 hentry
        exact .requirement hlisted hmem hfault
      intro shorthands _ hentries
      refine (Judges.mapM fun rel _ => judges_readRelationship id rel.1 rel.2).andThen ?_ ?_
      · rintro reason ⟨rel, hrel, hfault⟩
        obtain ⟨declared, hlisted, hmem⟩ := mem_fields_iff.1 hrel
        exact .relationship hlisted hmem hfault
      intro long _ hlong
      refine .reads ⟨rfl, fun r hr => ?_⟩ fun reason h => ?_
      · exact mem_completeRequirements_iff.2 (.inr ⟨r, hr, rfl⟩)
      cases h with
      | shape map => exact map fields rfl
      | untyped hnone => exact hnone (Fields.hasScalar_of_text? htype)
      | requirement listed member fault =>
        exact hentries reason ⟨_, mem_items_iff.2 ⟨_, listed, member⟩, fault⟩
      | relationship listed member fault =>
        exact hlong reason ⟨_, mem_fields_iff.2 ⟨_, listed, member⟩, fault⟩
  · next hmap => exact .refuses (.shape hmap)

theorem judges_readPolicyKind (group name : String) (stated : Option String) :
    Judges (fun reason => ∃ kind, stated = some kind ∧ kind ≠ "location" ∧ kind ≠ "behavior" ∧
        reason = s!"policy {name} of group {group} has unknown kind {kind}")
      (fun _ => True) (readPolicyKind group name stated) := by
  unfold readPolicyKind
  split
  · exact .reads trivial fun reason h => by simp at h
  · exact .reads trivial fun reason h => by simp at h
  · next kind hlocation hbehavior =>
    exact .refuses ⟨kind, rfl, hlocation, hbehavior, rfl⟩
  · exact .reads trivial fun reason h => by simp at h

theorem judges_readPolicy (group : String) (index : Nat) (v : Json) :
    Judges (PolicyFault group index v) (fun _ => True) (readPolicy group index v) := by
  unfold readPolicy
  split
  · next fields =>
    refine (judges_readPolicyKind group _ _).andThen ?_ fun kind _ hkind => ?_
    · rintro reason ⟨kind, hstated, hlocation, hbehavior, rfl⟩
      exact .kind rfl hstated hlocation hbehavior
    · have hnone (reason : String) : ¬ PolicyFault group index (.obj fields) reason := by
        intro h
        cases h with
        | shape map => exact map fields rfl
        | kind named stated location behavior =>
          exact hkind _ ⟨_, stated, location, behavior, rfl⟩
      dsimp only
      split
      · exact .reads trivial hnone
      · exact .reads trivial hnone
  · next hmap => exact .refuses (.shape hmap)

/-- Policies in turn, the first one at a given place. -/
theorem judges_readPoliciesFrom (group : String) (index : Nat) (vs : List Json) :
    Judges (fun reason => ∃ i v, vs[i]? = some v ∧ PolicyFault group (index + i) v reason)
      (fun _ => True) (readPoliciesFrom group index vs) := by
  induction vs generalizing index with
  | nil => exact .reads trivial fun reason h => by simp at h
  | cons v vs ih =>
    rw [readPoliciesFrom]
    refine (judges_readPolicy group index v).andThen ?_ fun policy _ hfirst => ?_
    · exact fun reason h => ⟨0, v, rfl, h⟩
    refine (ih (index + 1)).andThen ?_ fun rest _ hrest => ?_
    · rintro reason ⟨i, w, hw, h⟩
      exact ⟨i + 1, w, hw, by rwa [Nat.add_assoc, Nat.add_comm 1] at h⟩
    · refine .reads trivial ?_
      rintro reason ⟨i, w, hw, h⟩
      cases i with
      | zero =>
        cases hw
        exact hfirst reason h
      | succ i => exact hrest reason ⟨i, w, hw, by rwa [Nat.add_assoc, Nat.add_comm 1]⟩

theorem judges_readGroup (name : String) (v : Json) :
    Judges (GroupDocumentFault name v) (fun _ => True) (readGroup name v) := by
  unfold readGroup
  split
  · next fields =>
    refine (judges_readPoliciesFrom name 0 _).andThen ?_ fun policies _ hnone => ?_
    · rintro reason ⟨i, v, hv, h⟩
      rw [Nat.zero_add] at h
      cases hpolicies : Entries.get? "policies" fields with
      | none => rw [hpolicies] at hv; cases hv
      | some w =>
        rw [hpolicies] at hv
        cases w with
        | arr items => exact .listed hpolicies hv h
        | obj entries =>
          rw [policyBodies, List.getElem?_map, Option.map_eq_some_iff] at hv
          obtain ⟨entry, hentry, rfl⟩ := hv
          exact .named hpolicies hentry h
        | _ => cases hv
    · refine .reads trivial fun reason h => ?_
      cases h with
      | shape map => exact map fields rfl
      | listed policies member fault =>
        refine hnone reason ⟨_, _, ?_, by rwa [Nat.zero_add]⟩
        rw [policies]
        exact member
      | named policies member fault =>
        refine hnone reason ⟨_, _, ?_, by rwa [Nat.zero_add]⟩
        rw [policies, policyBodies, List.getElem?_map, member]
        rfl
  · next hmap => exact .refuses (.shape hmap)

/-- A document has one template. -/
theorem hasTemplate_iff {root template : Fields} :
    HasTemplate root template ↔ template = templateFields root := by
  unfold templateFields
  constructor
  · intro h
    cases h with
    | nested map => rw [map]; rfl
    | top noMap =>
      cases hget : Entries.get? "topology_template" root with
      | none => rfl
      | some v =>
        cases v with
        | obj fields => exact absurd hget (noMap fields)
        | _ => rfl
  · rintro rfl
    cases hget : Entries.get? "topology_template" root with
    | none => exact .top (by simp [hget])
    | some v =>
      cases v with
      | obj fields => exact .nested hget
      | _ => exact .top (by simp [hget])

/-- Node templates are read under their names in the document, in order. -/
theorem judges_readNodes (template : Fields) :
    Judges (NodesFault template)
      (fun nodes => HasNodeIds template (nodes.map (·.id)) ∧
        ∀ n ∈ nodes, ∀ r ∈ n.relationships, r.requirement ∈ n.requirements)
      (readNodes template) := by
  unfold readNodes
  split
  · next hget =>
    refine .reads ⟨.absent hget, List.forall_mem_nil _⟩ fun reason h => ?_
    cases h with
    | shape present map => rw [hget] at present; cases present
    | node present member fault => rw [hget] at present; cases present
  · next entries hget =>
    refine (Judges.mapM fun e _ => judges_readNode e.1 e.2).retell (fun reason => ?_) ?_
    · constructor
      · rintro ⟨e, he, hfault⟩
        exact .node hget he hfault
      · intro h
        cases h with
        | shape present map =>
          rw [hget] at present
          cases present
          exact absurd rfl (map entries)
        | node present member fault =>
          rw [hget] at present
          cases present
          exact ⟨_, member, fault⟩
    · intro nodes hnodes
      refine ⟨?_, forall_of_forall₂ hnodes fun e n hn => hn.2⟩
      rw [map_eq_of_forall₂ hnodes fun e n hn => hn.1]
      exact .listed hget
  · next v hmap hget => exact .refuses (.shape hget fun fields h => hmap fields (h ▸ rfl))

theorem judges_readGroups (template : Fields) :
    Judges (GroupsFault template) (fun _ => True) (readGroups template) := by
  unfold readGroups
  split
  · next entries hget =>
    refine (Judges.mapM fun e _ => judges_readGroup e.1 e.2).retell (fun reason => ?_) fun _ _ =>
      trivial
    constructor
    · rintro ⟨e, he, hfault⟩
      exact .group hget he hfault
    · rintro ⟨present, member, fault⟩
      rw [hget] at present
      cases present
      exact ⟨_, member, fault⟩
  · next hnone =>
    refine .reads trivial ?_
    rintro reason ⟨present, member, fault⟩
    exact hnone _ present

/-- A document is judged by its template. -/
theorem judges_read (doc : Json) :
    Judges (DocumentFault doc)
      (fun t => (∃ root template, doc = .obj root ∧ HasTemplate root template ∧
          HasNodeIds template t.ids) ∧
        ∀ n ∈ t.nodes, ∀ r ∈ n.relationships, r.requirement ∈ n.requirements)
      (read doc) := by
  unfold read
  split
  · next root =>
    have hwithin : HasTemplate root (templateFields root) := hasTemplate_iff.2 rfl
    refine (judges_readNodes (templateFields root)).andThen ?_ fun nodes hnodes hnone => ?_
    · exact fun reason h => .nodes hwithin h
    refine (judges_readGroups (templateFields root)).andThen ?_ fun groups _ hgroups => ?_
    · exact fun reason h => .groups hwithin h
    refine .reads ⟨⟨root, _, rfl, hwithin, hnodes.1⟩, hnodes.2⟩ fun reason h => ?_
    cases h with
    | shape map => exact map root rfl
    | nodes within fault => exact hnone reason (hasTemplate_iff.1 within ▸ fault)
    | groups within fault => exact hgroups reason (hasTemplate_iff.1 within ▸ fault)
  · next hmap => exact .refuses (.shape hmap)

theorem HasTemplate.isDistinct {root template : Fields} (h : HasTemplate root template)
    (hdoc : (Json.obj root).isDistinct = true) : (Json.obj template).isDistinct = true := by
  cases h with
  | nested map => exact Json.isDistinct_of_field? hdoc map
  | top => exact hdoc

/-- In a template whose objects have one field of each name, ids are different. -/
theorem HasNodeIds.nodup {template : Fields} {ids : List String} (h : HasNodeIds template ids)
    (htemplate : (Json.obj template).isDistinct = true) : ids.Nodup := by
  cases h with
  | listed present =>
    exact ((Json.isDistinct_obj _).1 (Json.isDistinct_of_field? htemplate present)).1
  | absent => exact List.nodup_nil

/-- Documents are read exactly within their grammar: a document is refused when and only when
something is wrong with it, always as an invalid topology and for a reason that something is wrong.
The nodes of a topology that is read are the fields of the document's map of node templates, in
order, so their ids are different; and each node requires what its relationships satisfy. -/
theorem read_within_grammar (doc : Json) :
    ((∃ f, read doc = .error f) ↔ ∃ reason, DocumentFault doc reason) ∧
    (∀ f, read doc = .error f →
      ∃ reason, DocumentFault doc reason ∧ f = .compile (.invalidTopology reason)) ∧
    ∀ t, read doc = .ok t →
      (∃ root template, doc = .obj root ∧ HasTemplate root template ∧
        HasNodeIds template t.ids) ∧
      (doc.isDistinct = true → t.ids.Nodup) ∧
      ∀ n ∈ t.nodes, ∀ r ∈ n.relationships, r.requirement ∈ n.requirements := by
  have hjudges := judges_read doc
  refine ⟨hjudges.exists_error_iff, hjudges.error, fun t ht => ?_⟩
  obtain ⟨⟨⟨root, template, rfl, hwithin, hids⟩, hrequired⟩, -⟩ := hjudges.ok t ht
  refine ⟨⟨root, template, rfl, hwithin, hids⟩, fun hdoc => ?_, hrequired⟩
  exact hids.nodup (hwithin.isDistinct hdoc)

/-- A machine and an application with a relationship that names a requirement of its own, below
`topology_template`; a second application has no type. -/
def stackDocument (typed : Bool) : Json :=
  .obj [("topology_template", .obj [("node_templates", .obj [
    ("vm", .obj [("type", .str "Machine")]),
    ("app", .obj [("type", .str "App"),
      ("requirements", .arr [.obj [("host", .str "vm")]]),
      ("relationships", .obj [
        ("link", .obj [("target", .str "vm"), ("requirement", .str "near")])])]),
    ("tool", .obj (if typed then [("type", .str "Tool")] else []))])])]

/-- With all types the document is read; without one it is refused. -/
theorem read_stackDocument : (stackDocument true).isDistinct = true ∧
    (∃ t, read (stackDocument true) = .ok t ∧ t.ids.Nodup ∧
      ∀ n ∈ t.nodes, ∀ r ∈ n.relationships, r.requirement ∈ n.requirements) ∧
    (∃ f, read (stackDocument false) = .error f) ∧
    ∃ reason, DocumentFault (stackDocument false) reason := by
  have hdistinct : (stackDocument true).isDistinct = true := by decide +kernel
  have hread : ((read (stackDocument true)).toOption.map (·.ids)) = some ["vm", "app", "tool"] := by
    decide +kernel
  have hrefused : (read (stackDocument false)).toOption.isNone = true := by decide +kernel
  obtain ⟨t, ht, -⟩ := Option.map_eq_some_iff.1 hread
  have hok : read (stackDocument true) = .ok t := eq_ok_of_toOption ht
  obtain ⟨-, hnodup, hrequired⟩ := (read_within_grammar (stackDocument true)).2.2 t hok
  have herror : ∃ f, read (stackDocument false) = .error f := by
    cases hr : read (stackDocument false) with
    | error f => exact ⟨f, rfl⟩
    | ok t' => rw [hr] at hrefused; cases hrefused
  exact ⟨hdistinct, ⟨t, hok, hnodup hdistinct, hrequired⟩, herror,
    (read_within_grammar (stackDocument false)).1.1 herror⟩

end Topology

end DeployPlan
