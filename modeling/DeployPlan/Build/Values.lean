import DeployPlan.Build.Basic

/-!
# Values of node plans

The properties of a node become properties and config of its plan, and its artifacts config keys.
Some relationships write one value into the config of the node they start from. Sizing properties
of compute nodes are also provisioning values; the attributes that a type gives values are
attributes of the plan.
-/
namespace DeployPlan

/-- The type of relationships that write a value into the config of their source. -/
def injectProperty : String := "tosca.relationships.InjectProperty"

/-- Sizing properties of compute nodes and the provisioning keys they become. -/
def provisioningKeys : List (String × String) :=
  [("mem_size", "min_ram"), ("disk_size", "min_disk"), ("num_cpus", "min_cores"),
    ("os_distribution", "os_family"), ("os_version", "os_version_regex")]

namespace NodePlan

/-- A plan with a property, which is also config. -/
def putProperty (p : NodePlan) (name : String) (v : PlanValue) : NodePlan :=
  { p with properties := p.properties.insert name v }.putConfig name v

/-- A plan with the outcomes of properties; those that are unresolved are left out. -/
def putProperties (p : NodePlan) (outcomes : List (String × Resolution)) : NodePlan :=
  outcomes.foldl (fun p o => match PlanValue.ofResolution? o.2 with
    | some v => p.putProperty o.1 v
    | none => p) p

def putEntries (p : NodePlan) (entries : List (String × PlanValue)) : NodePlan :=
  entries.foldl (fun p e => p.putConfig e.1 e.2) p

def provision (p : NodePlan) : NodePlan :=
  { p with provisioning := provisioningKeys.foldl (fun m k =>
      match p.properties[k.1]?.bind PlanValue.literal? with
      | some v => m.insert k.2 v
      | none => m) p.provisioning }

end NodePlan

def NodeTemplate.artifactEntries (n : NodeTemplate) : List (String × PlanValue) :=
  (n.artifacts.filter fun a => a.2.hasReference).map fun a => (a.1, .ofText a.2.reference)

/-- The config entry that writes a value: under a name, in a list under a collection, or under a
name in a map under a collection. There is none when both are blank. -/
def injection? (name collection : String) (value : Json) : Option (String × PlanValue) :=
  if Text.isBlank collection then
    if Text.isBlank name then none else some (name, .literal value)
  else if Text.isBlank name then some (collection, .literal (.arr [value]))
  else some (collection, .literal (.obj [(name, value)]))

/-- The text of a value that is resolved; of any other outcome there is none. -/
def Resolution.literalText (r : Resolution) : String := (r.value?.map Json.text).getD ""

/-- The key of a type's attribute in a plan: its words joined by points. -/
def attributeKey (name : String) : String := ".".intercalate (Text.words name)

namespace Build

def noteUnresolved (outcomes : List (String × Resolution)) : Eval Unit :=
  outcomes.forM fun o =>
    if o.2 = .unresolved then
      Eval.note .debug s!"property {o.1} is unresolved" [("property", .str o.1)]
    else return ()

def putProperties (job : Job) (n : NodeTemplate) (p : NodePlan) : Eval NodePlan := do
  let outcomes ← Eval.nodeProperties job.scene n.id
  noteUnresolved outcomes
  return (p.putProperties outcomes).putEntries n.artifactEntries

/-- A plan with the provisioning values of its node, if that is a compute node. -/
def putProvisioning (job : Job) (n : NodeTemplate) (p : NodePlan) : NodePlan :=
  if (job.profile n.nodeType).isA computeType then p.provision else p

def edgeProperty (job : Job) (scope : Scope) (r : Relationship) (name : String) : Eval Resolution :=
  match r.properties[name]? with
  | some v => Eval.resolve job.scene scope v
  | none => return .unresolved

/-- The config entry that a relationship of the writing type makes. -/
def injectedBy (job : Job) (n : NodeTemplate) (r : Relationship) : Build (String × PlanValue) := do
  let scope := job.scene.topology.relationshipScope n.id r
  let name ← edgeProperty job scope r "prop.name"
  let collection ← edgeProperty job scope r "prop.collection"
  let value ← edgeProperty job scope r "prop.value"
  let v := (PlanValue.ofResolution? value).getD (.ofText "")
  match injection? name.literalText collection.literalText v.json with
  | some entry => return entry
  | none =>
    fail (.compile (.invalidRelationship n.id r.id "prop.name or prop.collection must be set"))

/-- The relationships of a node that write into its config. -/
def injecting (job : Job) (n : NodeTemplate) : List Relationship :=
  n.relationships.filter fun r => (job.profile r.relationshipType).isA injectProperty

def putInjected (job : Job) (n : NodeTemplate) (p : NodePlan) : Build NodePlan := do
  let entries ← (injecting job n).mapM (injectedBy job n)
  return p.putEntries entries

def putAttribute (job : Job) (scope : Scope) (p : NodePlan) (name : String) (v : PropertyValue) :
    Eval NodePlan := do
  match PlanValue.ofResolution? (← Eval.resolve job.scene scope v) with
  | some v => return { p with attributes := p.attributes.insert (attributeKey name) v }
  | none =>
    Eval.note .warn s!"attribute {name} could not be resolved; skipping" [("attribute", .str name)]
    return p

def putAttributes (job : Job) (n : NodeTemplate) (p : NodePlan) : Eval NodePlan :=
  (job.profile n.nodeType).attributes.foldlM (fun p a =>
    match a.2 with
    | some v => putAttribute job (job.scene.topology.nodeScope n.id) p a.1 v
    | none => return p) p

end Build

end DeployPlan
