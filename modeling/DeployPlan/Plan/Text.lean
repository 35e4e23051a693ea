import DeployPlan.Plan.Basic

/-!
# Plans as documents

A plan is written as an object whose fields have a fixed order. Optional parts of a node are left
out when they are empty; its kind stands inline.
-/
namespace DeployPlan

def ImplementationKind.fields : ImplementationKind → Fields
  | registered name => [("kind", .str "registered"), ("name", .str name)]
  | coLocation => [("kind", .str "co_location")]
  | applicationRoot => [("kind", .str "application_root")]
  | native name => [("kind", .str "native"), ("name", .str name)]
  | scriptedProcess => [("kind", .str "scripted_process")]

def Behavior.json (b : Behavior) : Json :=
  .obj [("name", .str b.name), ("category", .str b.category.name),
    ("behavior_type", .str b.behaviorType), ("config", .obj b.config)]

def PlanValue.mapJson (m : NameMap PlanValue) : Json :=
  .obj (m.toList.map fun (key, v) => (key, v.json))

def textMapJson (m : NameMap String) : Json := .obj (m.toList.map fun (key, t) => (key, .str t))

def RuntimeEnvironment.json (r : RuntimeEnvironment) : Json :=
  .obj [("pre_install_commands", .ofTexts r.preInstallCommands),
    ("pre_install_files", textMapJson r.preInstallFiles), ("shell_env", textMapJson r.shellEnv)]

def commandsJson (commands : Std.ExtTreeMap CommandSlot PlanValue) : Json :=
  .obj (commands.toList.map fun (slot, v) => (slot.name, v.json))

/-- A field, unless it is empty. -/
def optionalField (name : String) (isEmpty : Bool) (v : Json) : Fields :=
  if isEmpty then [] else [(name, v)]

def NodePlan.fields (p : NodePlan) (children : List Json) : Fields :=
  [("id", .str p.id), ("node_type", .str p.nodeType), ("display_name", .str p.displayName)]
    ++ p.kind.fields
    ++ [("properties", PlanValue.mapJson p.properties)]
    ++ optionalField "config" p.config.isEmpty (PlanValue.mapJson p.config)
    ++ optionalField "passthrough" p.passthrough.isEmpty (PlanValue.mapJson p.passthrough)
    ++ optionalField "provisioning" p.provisioning.isEmpty (.obj p.provisioning.toList)
    ++ optionalField "commands" p.commands.isEmpty (commandsJson p.commands)
    ++ optionalField "attributes" p.attributes.isEmpty (PlanValue.mapJson p.attributes)
    ++ optionalField "runtime" p.runtime.isEmpty p.runtime.json
    ++ optionalField "locations" p.locations.isEmpty (.arr p.locations)
    ++ optionalField "behaviors" p.behaviors.isEmpty (.arr (p.behaviors.map (·.json)))
    ++ [("children", .arr children)]

mutual

def Plan.treeJson : PlanTree → Json
  | .node p ts => .obj (p.fields (Plan.treesJson ts))

def Plan.treesJson : List PlanTree → List Json
  | [] => []
  | t :: ts => Plan.treeJson t :: Plan.treesJson ts

end

def Plan.json (p : Plan) : Json :=
  .obj <|
    [("name", .str p.name), ("roots", .arr (treesJson p.roots))]
      ++ optionalField "behaviors" p.behaviors.isEmpty (.arr (p.behaviors.map (·.json)))

end DeployPlan
