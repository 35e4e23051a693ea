import DeployPlan.Topology.Reader

/-!
# Types and their profiles

A catalog holds definitions of node and relationship types, several of one name when archives
define it differently. The profile of a type folds the definitions along its chain of ancestors:
of what several of them declare, the nearest to the type counts, and first declarations keep their
place.
-/
namespace DeployPlan

structure TypeProfile where
  name : String
  /-- The ancestors, the nearest one first. -/
  derivedFrom : List String
  interfaces : List Interface
  properties : NameMap PropertyValue
  attributes : List (String × Option PropertyValue)
  artifacts : List (String × Artifact)
deriving DecidableEq

namespace TypeProfile

def bare (name : String) : TypeProfile := ⟨name, [], [], ∅, [], []⟩

/-- Whether a profile is that of a type or of one derived from it. -/
def isA (p : TypeProfile) (typeName : String) : Bool :=
  p.name = typeName || p.derivedFrom.contains typeName

/-- Whether a profile says nothing beyond the name, attributes and artifacts aside. -/
def isUndefined (p : TypeProfile) : Bool :=
  p.derivedFrom.isEmpty && p.interfaces.isEmpty && p.properties.isEmpty

end TypeProfile

/-- How profiles are found: by the name of a type, for a list of dependencies. -/
abbrev TypeLookup := String → List Coordinates → Except Failure TypeProfile

structure TypeDefinition where
  name : String
  archive : Option Coordinates
  parent : Option String
  interfaces : List Interface
  properties : NameMap PropertyValue
  attributes : List (String × Option PropertyValue)
  artifacts : List (String × Artifact)
deriving DecidableEq

/-- Definitions in the order in which documents brought them. -/
structure TypeCatalog where
  definitions : List TypeDefinition
deriving DecidableEq

namespace TypeCatalog

/-- The default that a property definition gives. A map that names a type, and the empty map, give
none unless they have a field `default`; any other value is itself the default. -/
def readDefault? (v : Json) : Option PropertyValue :=
  match v with
  | .obj fields =>
    match Entries.get? "default" fields with
    | some d => some (.ofJson d)
    | none =>
      if Entries.has "type" fields || fields.isEmpty then none else some (.ofJson v)
  | v => some (.ofJson v)

def mapField (name : String) (body : Json) : Fields :=
  ((body.field? name).bind Json.asObject?).getD []

def readDefinition (archive : Option Coordinates) (name : String) (body : Json) :
    TypeDefinition where
  name := name
  archive := archive
  parent := (body.field? "derived_from").bind Json.asString?
  interfaces := Topology.readInterfaces (body.field? "interfaces")
  properties := NameMap.ofEntries <|
    (mapField "properties" body).filterMap fun (key, d) => (readDefault? d).map (key, ·)
  attributes := (mapField "attributes" body).map fun (key, d) => (key, readDefault? d)
  artifacts := Topology.readArtifacts (body.field? "artifacts")

/-- The archive that a type document states: its name is a string, its version anything. -/
def readArchive? (root : Fields) : Option Coordinates := do
  let v ← Entries.get? "archive" root
  let name ← (← v.field? "name").asString?
  match ← v.field? "version" with
  | .str version => some ⟨name, version⟩
  | version => some ⟨name, version.compact⟩

def sections : List String := ["node_types", "relationship_types"]

def readSection (root : Fields) (sectionName : String) : Except Failure (List TypeDefinition) :=
  match Entries.get? sectionName root with
  | none => .ok []
  | some (.obj types) =>
    .ok (types.map fun (name, body) => readDefinition (readArchive? root) name body)
  | some _ => .error (.plain s!"{sectionName} must be a map")

def empty : TypeCatalog := ⟨[]⟩

def isEmpty (c : TypeCatalog) : Bool := c.definitions.isEmpty

def contains (c : TypeCatalog) (typeName : String) : Bool :=
  c.definitions.any (·.name = typeName)

def extend (c : TypeCatalog) (ds : List TypeDefinition) : TypeCatalog := ⟨c.definitions ++ ds⟩

/-- Adds sections in turn up to the first one that is refused; what was added before stays. -/
def mergeSections (c : TypeCatalog) (root : Fields) :
    List String → Except Failure Unit × TypeCatalog
  | [] => (.ok (), c)
  | sectionName :: rest =>
    match readSection root sectionName with
    | .ok ds => (c.extend ds).mergeSections root rest
    | .error f => (.error f, c)

def merge (c : TypeCatalog) (doc : Json) : Except Failure Unit × TypeCatalog :=
  match doc with
  | .obj root => c.mergeSections root sections
  | _ => (.error (.plain "type document must be a map"), c)

/-- The definition that counts for a list of dependencies: the latest one of an archive among them,
else the latest one. -/
def select? (c : TypeCatalog) (dependencies : List Coordinates) (typeName : String) :
    Option TypeDefinition :=
  let latestFirst := (c.definitions.filter (·.name = typeName)).reverse
  (latestFirst.find? fun d => match d.archive with
    | some archive => dependencies.contains archive
    | none => false).or latestFirst.head?

/-- The definitions from a type up and the names of its ancestors, `seen` being the names met so
far with the latest one last. A name that comes again ends the walk with the names met. -/
def climb (c : TypeCatalog) (dependencies : List Coordinates) :
    Nat → List String → String → Except (List String) (List TypeDefinition × List String)
  | 0, _, _ => .ok ([], [])
  | n + 1, seen, name =>
    match c.select? dependencies name with
    | none => .ok ([], [])
    | some d =>
      match d.parent with
      | none => .ok ([d], [])
      | some parent =>
        if seen.contains parent then .error (seen ++ [parent])
        else
          match c.climb dependencies n (seen ++ [parent]) parent with
          | .error met => .error met
          | .ok (ds, names) => .ok (d :: ds, parent :: names)

def overlayOperations (base later : List Operation) : List Operation :=
  later.foldl (fun ops op =>
    if ops.any (·.name = op.name) then replaceFirst op ops else ops ++ [op]) base
where
  /-- The operations with the first one of the same name replaced. -/
  replaceFirst (op : Operation) : List Operation → List Operation
    | [] => []
    | o :: os => if o.name = op.name then op :: os else o :: replaceFirst op os

/-- The interfaces with the operations of `iface` put on top of the one of its name. -/
def overlayInterface (iface : Interface) : List Interface → List Interface
  | [] => [iface]
  | i :: is =>
    if i.name = iface.name then
      { i with operations := overlayOperations i.operations iface.operations } :: is
    else i :: overlayInterface iface is

def overlay (p : TypeProfile) (d : TypeDefinition) : TypeProfile :=
  { p with
    interfaces := d.interfaces.foldl (fun is i => overlayInterface i is) p.interfaces
    properties := NameMap.overlay p.properties d.properties
    attributes := Entries.putAll p.attributes d.attributes
    artifacts := Entries.putAll p.artifacts d.artifacts }

/-- The profile of a type for a list of dependencies. A type without definition has a bare one. -/
def lookup (c : TypeCatalog) : TypeLookup := fun typeName dependencies =>
  match c.climb dependencies (c.definitions.length + 1) [typeName] typeName with
  | .error chain => .error (.compile (.cyclicTypeHierarchy chain))
  | .ok (ds, ancestors) =>
    .ok (ds.reverse.foldl overlay { TypeProfile.bare typeName with derivedFrom := ancestors })

end TypeCatalog

end DeployPlan
