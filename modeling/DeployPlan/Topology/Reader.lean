import DeployPlan.Failure
import DeployPlan.Topology.Basic

/-!
# Reading topologies from documents

The reader takes a decoded document. Node templates and groups stand at the top or under
`topology_template`. Shapes without meaning are passed over, except where a node, a relationship, a
requirement, a group or a policy cannot be made out; those are refused with a reason.
-/
namespace DeployPlan

/-- The scalar under the first of the names that is present. -/
def Fields.text? (names : List String) (fields : Fields) : Option String :=
  (Entries.first? names fields).bind Json.scalarText?

namespace Topology

def refuse {α : Type} (reason : String) : Except Failure α :=
  .error (.compile (.invalidTopology reason))

/-- The property values of a map, and none of any other value. -/
def readProperties (v : Option Json) : NameMap PropertyValue :=
  match v.bind Json.asObject? with
  | some fields => NameMap.ofEntries (fields.map fun (name, raw) => (name, .ofJson raw))
  | none => ∅

def readArtifact? : Json → Option Artifact
  | .str reference => some (.ofReference reference)
  | .obj fields => some {
      archiveName := Fields.text? ["archive_name", "archiveName"] fields
      archiveVersion := Fields.text? ["archive_version", "archiveVersion"] fields
      reference := (Fields.text? ["ref", "file", "artifact_ref", "primary"] fields).getD ""
      artifactType := Fields.text? ["type", "artifact_type"] fields
      artifactName := Fields.text? ["name", "artifact_name"] fields }
  | _ => none

/-- The artifacts of a map in order; a field that stands for none is passed over. -/
def readArtifacts (v : Option Json) : List (String × Artifact) :=
  match v.bind Json.asObject? with
  | some fields => fields.filterMap fun (id, raw) => (readArtifact? raw).map (id, ·)
  | none => []

def readOperation (name : String) : Json → Operation
  | .obj fields =>
    { name := name
      implementation := (Entries.get? "implementation" fields).bind readArtifact?
      inputs := match (Entries.get? "inputs" fields).bind Json.asObject? with
        | some inputs => inputs.map fun (key, raw) => (key, .ofJson raw)
        | none => [] }
  | .str reference => ⟨name, some (.ofReference reference), []⟩
  | _ => ⟨name, none, []⟩

/-- The operations of an interface body: the fields of its map `operations`, else its own. -/
def readOperations (body : Json) : List Operation :=
  let fields := ((body.field? "operations").bind Json.asObject?).or body.asObject?
  ((fields.getD []).filter fun f => f.1 ≠ "type").map fun (name, raw) => readOperation name raw

def readInterfaces (v : Option Json) : List Interface :=
  match v.bind Json.asObject? with
  | some fields => fields.map fun (name, body) => ⟨name, readOperations body⟩
  | none => []

def readRelationship (node id : String) (v : Json) : Except Failure Relationship :=
  match v with
  | .obj fields =>
    match Fields.text? ["target", "node"] fields with
    | none => refuse s!"relationship {id} on node {node} has no target"
    | some target =>
      let relationshipType := (Fields.text? ["type", "relationship"] fields).getD dependsOn
      .ok {
        id := id
        requirement := (Fields.text? ["requirement", "requirement_name"] fields).getD
          (if relationshipType = hostedOn then hostRequirement else id)
        target := target
        relationshipType := relationshipType
        properties := readProperties (Entries.get? "properties" fields)
        interfaces := readInterfaces (Entries.get? "interfaces" fields) }
  | _ => refuse s!"relationship {id} on node {node} must be a map"

/-- The relationship type of a requirement that names none. -/
def requirementType (name : String) : String :=
  if name = hostRequirement then hostedOn else dependsOn

/-- The relationship that one field of a requirement entry declares. -/
def readShorthand (node name : String) : Json → Except Failure Relationship
  | .str target => .ok ⟨s!"{name}_{target}", name, target, requirementType name, ∅, []⟩
  | .obj body =>
    match Fields.text? ["node", "target"] body with
    | none => refuse s!"requirement {name} on node {node} has no target node"
    | some target => .ok {
        id := s!"{name}_{target}"
        requirement := name
        target := target
        relationshipType :=
          (Fields.text? ["relationship", "type"] body).getD (requirementType name)
        properties := readProperties (Entries.get? "properties" body)
        interfaces := readInterfaces (Entries.get? "interfaces" body) }
  | _ => refuse s!"requirement {name} on node {node} must name a target"

/-- The requirement names and relationships that one requirement entry declares. -/
def readRequirement (node : String) : Json → Except Failure (List String × List Relationship)
  | .str name => .ok ([name], [])
  | .obj fields => do
    let relationships ← fields.mapM fun (name, spec) => readShorthand node name spec
    .ok (fields.map (·.1), relationships)
  | v => refuse s!"unsupported requirement entry on node {node}: {v.compact}"

/-- The names, and those of relationships that are not among them yet. -/
def completeRequirements (names : List String) (relationships : List Relationship) :
    List String :=
  relationships.foldl
    (fun names r => if names.contains r.requirement then names else names ++ [r.requirement]) names

/-- A node template. Its requirement entries come before its relationships. -/
def readNode (id : String) (v : Json) : Except Failure NodeTemplate :=
  match v with
  | .obj fields =>
    match Fields.text? ["type"] fields with
    | none => refuse s!"node template {id} has no type"
    | some nodeType => do
      let entries := ((Entries.get? "requirements" fields).bind Json.asArray?).getD []
      let shorthands ← entries.mapM (readRequirement id)
      let declared := ((Entries.get? "relationships" fields).bind Json.asObject?).getD []
      let long ← declared.mapM fun (relId, rel) => readRelationship id relId rel
      let relationships := shorthands.flatMap (·.2) ++ long
      .ok {
        id := id
        nodeType := nodeType
        typeVersion := Fields.text? ["type_version", "version"] fields
        name := Fields.text? ["name"] fields
        properties := readProperties (Entries.get? "properties" fields)
        requirements := completeRequirements (shorthands.flatMap (·.1)) relationships
        relationships := relationships
        interfaces := readInterfaces (Entries.get? "interfaces" fields)
        artifacts := readArtifacts (Entries.get? "artifacts" fields) }
  | _ => refuse s!"node template {id} must be a map"

/-- The kind of a policy: the one it states, else by its name. -/
def readPolicyKind (group name : String) : Option String → Except Failure PolicyKind
  | some "location" => .ok .location
  | some "behavior" => .ok .behavior
  | some other => refuse s!"policy {name} of group {group} has unknown kind {other}"
  | none => .ok (if name = "location" then .location else .behavior)

/-- A policy. A behaviour without a type takes the scalar `type` out of its data. -/
def readPolicy (group : String) (index : Nat) (v : Json) : Except Failure Policy :=
  match v with
  | .obj fields => do
    let name := (Fields.text? ["name"] fields).getD s!"{group}-{index}"
    let data := ((Entries.first? ["data", "properties"] fields).bind Json.asObject?).getD []
    let kind ← readPolicyKind group name (Fields.text? ["kind"] fields)
    let stated := Fields.text? ["type"] fields
    if kind = .behavior ∧ stated = none then
      .ok ⟨name, kind, Fields.text? ["type"] data, Entries.remove "type" data⟩
    else .ok ⟨name, kind, stated, data⟩
  | _ => refuse s!"policy #{index} of group {group} must be a map"

def readPoliciesFrom (group : String) (index : Nat) : List Json → Except Failure (List Policy)
  | [] => .ok []
  | v :: vs => do
    let policy ← readPolicy group index v
    let rest ← readPoliciesFrom group (index + 1) vs
    .ok (policy :: rest)

/-- The body of a policy that a map lists under `name`, with that name unless it has one. -/
def namedPolicy (name : String) : Json → Json
  | .obj fields =>
    if Entries.has "name" fields then .obj fields else .obj (fields ++ [("name", .str name)])
  | v => v

/-- The policies of a group: a list of bodies, or a map from names to bodies. -/
def policyBodies : Option Json → List Json
  | some (.arr items) => items
  | some (.obj named) => named.map fun (name, body) => namedPolicy name body
  | _ => []

def readGroup (name : String) (v : Json) : Except Failure Group :=
  match v with
  | .obj fields => do
    let members := ((Entries.get? "members" fields).bind Json.asArray?).getD []
    let policies ← readPoliciesFrom name 0 (policyBodies (Entries.get? "policies" fields))
    .ok ⟨name, members.filterMap Json.scalarText?, policies⟩
  | _ => refuse s!"group {name} must be a map"

def readCoordinates? (v : Json) : Option Coordinates := do
  let fields ← v.asObject?
  let name ← Fields.text? ["name"] fields
  let version ← Fields.text? ["version"] fields
  some ⟨name, version⟩

def templateFields (root : Fields) : Fields :=
  ((Entries.get? "topology_template" root).bind Json.asObject?).getD root

def readNodes (template : Fields) : Except Failure (List NodeTemplate) :=
  match Entries.get? "node_templates" template with
  | none => .ok []
  | some (.obj entries) => entries.mapM fun (id, body) => readNode id body
  | some _ => refuse "node_templates must be a map"

def readGroups (template : Fields) : Except Failure (List Group) :=
  match Entries.get? "groups" template with
  | some (.obj entries) => entries.mapM fun (name, body) => readGroup name body
  | _ => .ok []

def read (doc : Json) : Except Failure Topology :=
  match doc with
  | .obj root => do
    let nodes ← readNodes (templateFields root)
    let groups ← readGroups (templateFields root)
    let dependencies := (Entries.first? ["dependencies", "imports"] root).bind Json.asArray?
    .ok {
      name := (Fields.text? ["name", "template_name"] root).getD ""
      nodes := nodes
      groups := groups
      dependencies := (dependencies.getD []).filterMap readCoordinates?
      archive := (Entries.get? "archive" root).bind readCoordinates? }
  | _ => refuse "topology document must be a map"

end Topology

end DeployPlan
