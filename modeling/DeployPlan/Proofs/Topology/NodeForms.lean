import DeployPlan.Proofs.Topology.Alike
import DeployPlan.Proofs.Topology.Rewriting

/-!
# Short and long forms in node templates

Operations, interface bodies and requirement entries declare the same in short and in full, so a
node template with one of them rewritten is read as the same node.
-/
namespace DeployPlan

open Entries (ChangesOne)

namespace Topology

theorem Under.mem {place : String} {R : Json → Json → Prop} (name : String) (v w : Json)
    (h : Under place R name v w) : name ∈ [place] := List.mem_singleton.2 h.1

/-- A change under one name is a change of what stands there. -/
theorem get?_under {place : String} {R : Json → Json → Prop} {fields fields' : Fields}
    (h : ChangesOne (Under place R) fields fields') :
    Entries.get? place fields = Entries.get? place fields' ∨
      ∃ v w, Entries.get? place fields = some v ∧ Entries.get? place fields' = some w ∧ R v w := by
  rcases h.get? place with heq | ⟨v, w, hv, hw, change⟩
  · exact .inl heq
  · exact .inr ⟨v, w, hv, hw, change.2⟩

theorem readOperation_eq {v w : Json} (h : OperationRewrite v w) (name : String) :
    readOperation name v = readOperation name w := by
  cases h with
  | script reference => rfl
  | implementation change =>
    obtain @⟨fields, fields', change⟩ := change
    have hscript : (Entries.get? "implementation" fields).bind readArtifact? =
        (Entries.get? "implementation" fields').bind readArtifact? := by
      rcases get?_under change with heq | ⟨v, w, hv, hw, ⟨reference⟩⟩
      · rw [heq]
      · rw [hv, hw]
        rfl
    have hinputs : Entries.get? "inputs" fields = Entries.get? "inputs" fields' :=
      change.get?_eq Under.mem (by decide)
    simp only [readOperation, hscript, hinputs]

def ownOperations (fields : Fields) : List Operation :=
  (fields.filter fun f => f.1 ≠ "type").map fun (name, raw) => readOperation name raw

theorem readOperations_of_listed {fields ops : Fields}
    (h : Entries.get? "operations" fields = some (.obj ops)) :
    readOperations (.obj fields) = ownOperations ops := by
  simp only [readOperations, Json.field?, h, Option.bind_some, Json.asObject?, Option.some_or,
    Option.getD_some, ownOperations]

theorem readOperations_of_own {fields : Fields} (h : ListsNoOperations fields) :
    readOperations (.obj fields) = ownOperations fields := by
  have hnone : (Entries.get? "operations" fields).bind Json.asObject? = none := by
    cases hget : Entries.get? "operations" fields with
    | none => rfl
    | some v =>
      cases v with
      | obj ops => exact absurd hget (h ops)
      | _ => rfl
  simp only [readOperations, Json.field?, hnone, Json.asObject?, Option.none_or, Option.getD_some,
    ownOperations]

theorem ownOperations_eq {R : String → Json → Json → Prop} {ops ops' : Fields}
    (h : ChangesOne R ops ops') (hR : ∀ name v w, R name v w → OperationRewrite v w) :
    ownOperations ops = ownOperations ops' := by
  unfold ownOperations
  rcases h.filter (· ≠ "type") with heq | change
  · rw [heq]
  · exact change.map_eq fun name v w h => readOperation_eq (hR name v w h) name

theorem readOperations_eq {v w : Json} (h : BodyRewrite v w) :
    readOperations v = readOperations w := by
  cases h with
  | @own fields fields' own change =>
    -- A map cannot come to stand under `operations`, which is not changed.
    have own' : ListsNoOperations fields' := fun ops hops => by
      rcases change.get? "operations" with heq | ⟨v, w, -, -, hne, -⟩
      · exact own ops (heq.trans hops)
      · exact hne rfl
    rw [readOperations_of_own own, readOperations_of_own own']
    exact ownOperations_eq change fun name v w h => h.2
  | listed listed change =>
    rcases get?_under change with heq | ⟨v, w, hv, hw, ⟨inner⟩⟩
    · rw [readOperations_of_listed listed, readOperations_of_listed (heq ▸ listed)]
    · rw [readOperations_of_listed hv, readOperations_of_listed hw]
      exact ownOperations_eq inner fun name v w h => h
  | unlist listed own =>
    rw [readOperations_of_listed listed, readOperations_of_own own]

/-- Interfaces that stand under a name in fields of which one is changed. -/
theorem readInterfaces_eq {R : String → Json → Json → Prop} {fields fields' : Fields}
    (h : ChangesOne R fields fields')
    (hR : ∀ v w, R "interfaces" v w → InterfacesRewrite v w) :
    readInterfaces (Entries.get? "interfaces" fields) =
      readInterfaces (Entries.get? "interfaces" fields') := by
  rcases h.get? "interfaces" with heq | ⟨v, w, hv, hw, change⟩
  · rw [heq]
  · obtain ⟨inner⟩ := hR v w change
    rw [hv, hw]
    exact inner.map_eq fun name v w h => congrArg (Interface.mk name) (readOperations_eq h)

theorem readShorthand_eq {v w : Json} (h : ShorthandRewrite v w) (node name : String) :
    readShorthand node name v = readShorthand node name w := by
  cases h with
  | target target => rfl
  | interfaces change =>
    obtain @⟨fields, fields', change⟩ := change
    have htarget : Fields.text? ["node", "target"] fields =
        Fields.text? ["node", "target"] fields' :=
      Fields.text?_eq change Under.mem (by decide)
    have htype : Fields.text? ["relationship", "type"] fields =
        Fields.text? ["relationship", "type"] fields' :=
      Fields.text?_eq change Under.mem (by decide)
    have hproperties : Entries.get? "properties" fields = Entries.get? "properties" fields' :=
      change.get?_eq Under.mem (by decide)
    have hinterfaces := readInterfaces_eq change fun v w h => h.2
    simp only [readShorthand, htarget, htype, hproperties, hinterfaces]

theorem readRelationship_eq {v w : Json} (h : RelationshipRewrite v w) (node id : String) :
    readRelationship node id v = readRelationship node id w := by
  obtain @⟨fields, fields', change⟩ := h
  have htarget : Fields.text? ["target", "node"] fields = Fields.text? ["target", "node"] fields' :=
    Fields.text?_eq change Under.mem (by decide)
  have htype : Fields.text? ["type", "relationship"] fields =
      Fields.text? ["type", "relationship"] fields' :=
    Fields.text?_eq change Under.mem (by decide)
  have hrequirement : Fields.text? ["requirement", "requirement_name"] fields =
      Fields.text? ["requirement", "requirement_name"] fields' :=
    Fields.text?_eq change Under.mem (by decide)
  have hproperties : Entries.get? "properties" fields = Entries.get? "properties" fields' :=
    change.get?_eq Under.mem (by decide)
  have hinterfaces := readInterfaces_eq change fun v w h => h.2
  simp only [readRelationship, htarget, htype, hrequirement, hproperties, hinterfaces]

/-- One entry declares what several entries declare together. -/
def Together (entry : List String × List Relationship)
    (entries : List (List String × List Relationship)) : Prop :=
  entry.1 = entries.flatMap (·.1) ∧ entry.2 = entries.flatMap (·.2)

/-- The entry of one field declares what the field does. -/
theorem readRequirement_single (node : String) (f : String × Json) :
    readRequirement node (.obj [f]) =
      readShorthand node f.1 f.2 >>= fun r => .ok ([f.1], [r]) := by
  rw [readRequirement, List.mapM_cons, List.mapM_nil]
  dsimp only
  cases readShorthand node f.1 f.2 <;> rfl

/-- Fields in turn are read alike in entries of their own. -/
theorem mapM_readShorthand_agrees (node : String) (fields : Fields) :
    Agrees (fun relationships => Together (fields.map (·.1), relationships))
      (fields.mapM fun f => readShorthand node f.1 f.2)
      ((fields.map fun f => Json.obj [f]).mapM (readRequirement node)) := by
  induction fields with
  | nil => exact .ok ⟨rfl, rfl⟩
  | cons f fields ih =>
    rw [List.mapM_cons, List.map_cons, List.map_cons, List.mapM_cons, readRequirement_single,
      bind_assoc]
    refine (Agrees.of_eq (fun _ => rfl) rfl).bind fun r r' (hr : r = r') => ?_
    refine ih.bind fun relationships entries h => .ok ?_
    obtain ⟨hnames, hrelationships⟩ := h
    subst hr
    constructor
    · simpa using hnames
    · simpa using hrelationships

theorem readRequirement_agrees {v : Json} {ws : List Json} (h : EntryRewrite v ws)
    (node : String) :
    Agrees Together (readRequirement node v) (ws.mapM (readRequirement node)) := by
  cases h with
  | field change =>
    obtain @⟨fields, fields', change⟩ := change
    have hnames : fields.map (·.1) = fields'.map (·.1) := change.map_eq fun _ _ _ _ => rfl
    have hfields : fields.mapM (fun f => readShorthand node f.1 f.2) =
        fields'.mapM fun f => readShorthand node f.1 f.2 :=
      change.mapM_eq fun name v w h => readShorthand_eq h node name
    have heq : readRequirement node (.obj fields) = readRequirement node (.obj fields') := by
      simp only [readRequirement, hnames, hfields]
    rw [heq, List.mapM_cons, List.mapM_nil]
    cases readRequirement node (.obj fields') with
    | ok declared => exact .ok ⟨by simp, by simp⟩
    | error f => exact .error f
  | split fields => exact (mapM_readShorthand_agrees node fields).map_left fun _ _ h => h

/-- The declarations of two lists of requirement entries are the same together. -/
def SameDeclared (entries entries' : List (List String × List Relationship)) : Prop :=
  entries.flatMap (·.1) = entries'.flatMap (·.1) ∧ entries.flatMap (·.2) = entries'.flatMap (·.2)

theorem mapM_readRequirement_agrees {entry : Json} {entries : List Json}
    (h : EntryRewrite entry entries) (node : String) (before after : List Json) :
    Agrees SameDeclared ((before ++ entry :: after).mapM (readRequirement node))
      ((before ++ (entries ++ after)).mapM (readRequirement node)) := by
  have hsame (items : List Json) : Agrees Eq (items.mapM (readRequirement node))
      (items.mapM (readRequirement node)) := .of_eq (fun _ => rfl) rfl
  rw [List.mapM_append, List.mapM_append, List.mapM_cons, List.mapM_append]
  simp only [bind_assoc, pure_bind]
  refine (hsame before).bind fun bs bs' hbs => ?_
  refine (readRequirement_agrees h node).bind fun d ds hd => ?_
  refine (hsame after).bind fun as as' has => .ok ?_
  subst hbs has
  obtain ⟨hnames, hrelationships⟩ := hd
  constructor
  · simp [hnames]
  · simp [hrelationships]

theorem NodeFieldRewrite.mem (name : String) (v w : Json) (h : NodeFieldRewrite name v w) :
    name ∈ ["requirements", "relationships", "interfaces"] := by
  cases h with
  | requirements under | relationships under | interfaces under => simp [under]

/-- The requirement entries of nodes of which one field is changed. -/
theorem readRequirements_agrees {fields fields' : Fields}
    (h : ChangesOne NodeFieldRewrite fields fields') (node : String) :
    Agrees SameDeclared
      ((((Entries.get? "requirements" fields).bind Json.asArray?).getD []).mapM
        (readRequirement node))
      ((((Entries.get? "requirements" fields').bind Json.asArray?).getD []).mapM
        (readRequirement node)) := by
  rcases h.get? "requirements" with heq | ⟨v, w, hv, hw, change⟩
  · rw [heq]
    exact .of_eq (fun _ => ⟨rfl, rfl⟩) rfl
  rw [hv, hw]
  cases change with
  | requirements under before after change => exact mapM_readRequirement_agrees change node _ _
  | relationships under | interfaces under => simp at under

/-- The relationships of nodes of which one field is changed. -/
theorem readRelationships_eq {fields fields' : Fields}
    (h : ChangesOne NodeFieldRewrite fields fields') (node : String) :
    (((Entries.get? "relationships" fields).bind Json.asObject?).getD []).mapM
        (fun r => readRelationship node r.1 r.2) =
      (((Entries.get? "relationships" fields').bind Json.asObject?).getD []).mapM
        fun r => readRelationship node r.1 r.2 := by
  rcases h.get? "relationships" with heq | ⟨v, w, hv, hw, change⟩
  · rw [heq]
  rw [hv, hw]
  cases change with
  | relationships under change =>
    obtain ⟨change⟩ := change
    exact change.mapM_eq fun id v w h => readRelationship_eq h node id
  | requirements under | interfaces under => simp at under

theorem readNode_eq {v w : Json} (h : NodeRewrite v w) (id : String) :
    readNode id v = readNode id w := by
  obtain @⟨fields, fields', change⟩ := h
  have htext {names : List String} (hnames : ∀ name ∈ names,
      name ∉ ["requirements", "relationships", "interfaces"]) :
      Fields.text? names fields = Fields.text? names fields' :=
    Fields.text?_eq change NodeFieldRewrite.mem hnames
  have hget {name : String} (hname : name ∉ ["requirements", "relationships", "interfaces"]) :
      Entries.get? name fields = Entries.get? name fields' :=
    change.get?_eq NodeFieldRewrite.mem hname
  have hinterfaces : readInterfaces (Entries.get? "interfaces" fields) =
      readInterfaces (Entries.get? "interfaces" fields') := by
    refine readInterfaces_eq change fun v w h => ?_
    cases h with
    | interfaces under change => exact change
    | requirements under | relationships under => simp at under
  have htype : Fields.text? ["type"] fields = Fields.text? ["type"] fields' := htext (by decide)
  simp only [readNode, htype]
  cases Fields.text? ["type"] fields' with
  | none => rfl
  | some nodeType =>
    refine Agrees.eq ?_
    refine (readRequirements_agrees change id).bind fun ds ds' hds => ?_
    rw [readRelationships_eq change id]
    refine (Agrees.of_eq (fun _ => rfl) rfl).bind fun long long' hlong => .ok ?_
    obtain ⟨hnames, hrelationships⟩ := hds
    subst hlong
    rw [hnames, hrelationships, hinterfaces, hget (by decide), hget (by decide),
      htext (by decide), htext (by decide)]

end Topology

end DeployPlan
