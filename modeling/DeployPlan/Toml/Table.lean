import DeployPlan.Json.Basic

/-!
# Tables under construction

A table is put together from headers and dotted keys. Each table is defined once: by a header, or
by the dotted keys of one place; a header may complete a table that only headers below it have
mentioned. Main operation: `TableOf.descend` changes the table at a path.
-/
namespace DeployPlan.Toml

structure TableOf (α : Type) where
  /-- Only mentioned so far, in a header of a table below it or by dotted keys. -/
  mentioned : Bool
  /-- Made by dotted keys. -/
  dotted : Bool
  items : List (String × α)

inductive Item where
  | value (value : Json)
  | table (table : TableOf Item)
  | tables (tables : List (TableOf Item))

abbrev Table := TableOf Item

namespace Table

def root : Table := ⟨false, false, []⟩

/-- A table that a path mentions. -/
def mention (dotted : Bool) : Table := ⟨true, dotted, []⟩

def headed : Table := ⟨false, false, []⟩

def put (t : Table) (key : String) (i : Item) : Table :=
  { t with items := Entries.put key i t.items }

/-- Changes the table at a path, tables on the way being made where they are missing. Of a list of
tables the last one counts. A value on the way is refused, and so is a table that dotted keys did
not make when the path is dotted. -/
def descend (dotted : Bool) (f : Table → Option Table) : List String → Table → Option Table
  | [], t => f t
  | key :: path, t =>
    match Entries.get? key t.items with
    | none => (descend dotted f path (mention dotted)).map fun child => t.put key (.table child)
    | some (.value _) => none
    | some (.table child) =>
      if dotted && !child.mentioned then none
      else (descend dotted f path child).map fun child => t.put key (.table child)
    | some (.tables children) =>
      match children.getLast? with
      | none => none
      | some last =>
        (descend dotted f path last).map fun last =>
          t.put key (.tables (children.dropLast ++ [last]))

/-- Puts a value under the last key of a dotted path, unless there is something. The table has to be
one that dotted keys made, or, for a path of one key, one that they did not make. -/
def putValue (path : List String) (v : Json) (t : Table) : Option Table :=
  match path.getLast? with
  | none => none
  | some key =>
    descend true (fun t =>
      if t.dotted = path.dropLast.isEmpty then none
      else if Entries.has key t.items then none
      else some (t.put key (.value v))) path.dropLast t

def define (path : List String) (t : Table) : Option Table :=
  match path.getLast? with
  | none => none
  | some key =>
    descend false (fun t =>
      match Entries.get? key t.items with
      | none => some (t.put key (.table headed))
      | some (.table child) =>
        if child.mentioned && !child.dotted then
          some (t.put key (.table { child with mentioned := false }))
        else none
      | some _ => none) path.dropLast t

def append (path : List String) (t : Table) : Option Table :=
  match path.getLast? with
  | none => none
  | some key =>
    descend false (fun t =>
      match Entries.get? key t.items with
      | none => some (t.put key (.tables [headed]))
      | some (.tables children) => some (t.put key (.tables (children ++ [headed])))
      | some _ => none) path.dropLast t

end Table

mutual

def Item.json : Item → Json
  | .value v => v
  | .table t => tableJson t
  | .tables ts => .arr (tablesJson ts)

def tableJson : TableOf Item → Json
  | ⟨_, _, items⟩ => .obj (itemsJson items)

def tablesJson : List (TableOf Item) → List Json
  | [] => []
  | t :: ts => tableJson t :: tablesJson ts

def itemsJson : List (String × Item) → Fields
  | [] => []
  | (key, i) :: rest => (key, i.json) :: itemsJson rest

end

end DeployPlan.Toml
