import DeployPlan.Json.Text
import DeployPlan.Text.Blank

/-!
# Property values

What a document writes for a property is read as a text, a list, a map, a concatenation or a call.
Texts stand for every scalar: a number or a truth value is kept as its text.
-/
namespace DeployPlan

/-- The text of a scalar: a string as it is, a number or a truth value as it is written. -/
def Json.scalarText? : Json → Option String
  | .str s => some s
  | .num n => some n.text
  | .bool true => some "true"
  | .bool false => some "false"
  | _ => none

/-- The text of any value: a string bare, nothing for null, else its compact text. -/
def Json.text : Json → String
  | .str s => s
  | .null => ""
  | v => v.compact

/-- A call of a function by name, its arguments as texts. -/
structure FunctionCall where
  name : String
  args : List String
deriving DecidableEq, Repr

inductive PropertyValue where
  | scalar (text : String)
  | complex (fields : Fields)
  | list (items : List Json)
  | concat (parts : List PropertyValue)
  | call (call : FunctionCall)
  /-- A value without meaning here, such as null. -/
  | other (raw : Json)
deriving Repr

namespace PropertyValue

mutual

def decEq : (a b : PropertyValue) → Decidable (a = b)
  | scalar a, scalar b => if h : a = b then isTrue (h ▸ rfl) else isFalse fun e => h (scalar.inj e)
  | complex a, complex b =>
    if h : a = b then isTrue (h ▸ rfl) else isFalse fun e => h (complex.inj e)
  | list a, list b => if h : a = b then isTrue (h ▸ rfl) else isFalse fun e => h (list.inj e)
  | concat a, concat b =>
    match decEqParts a b with
    | isTrue h => isTrue (h ▸ rfl)
    | isFalse h => isFalse fun e => h (concat.inj e)
  | call a, call b => if h : a = b then isTrue (h ▸ rfl) else isFalse fun e => h (call.inj e)
  | other a, other b => if h : a = b then isTrue (h ▸ rfl) else isFalse fun e => h (other.inj e)
  | scalar _, complex _ => isFalse nofun
  | scalar _, list _ => isFalse nofun
  | scalar _, concat _ => isFalse nofun
  | scalar _, call _ => isFalse nofun
  | scalar _, other _ => isFalse nofun
  | complex _, scalar _ => isFalse nofun
  | complex _, list _ => isFalse nofun
  | complex _, concat _ => isFalse nofun
  | complex _, call _ => isFalse nofun
  | complex _, other _ => isFalse nofun
  | list _, scalar _ => isFalse nofun
  | list _, complex _ => isFalse nofun
  | list _, concat _ => isFalse nofun
  | list _, call _ => isFalse nofun
  | list _, other _ => isFalse nofun
  | concat _, scalar _ => isFalse nofun
  | concat _, complex _ => isFalse nofun
  | concat _, list _ => isFalse nofun
  | concat _, call _ => isFalse nofun
  | concat _, other _ => isFalse nofun
  | call _, scalar _ => isFalse nofun
  | call _, complex _ => isFalse nofun
  | call _, list _ => isFalse nofun
  | call _, concat _ => isFalse nofun
  | call _, other _ => isFalse nofun
  | other _, scalar _ => isFalse nofun
  | other _, complex _ => isFalse nofun
  | other _, list _ => isFalse nofun
  | other _, concat _ => isFalse nofun
  | other _, call _ => isFalse nofun

def decEqParts : (a b : List PropertyValue) → Decidable (a = b)
  | [], [] => isTrue rfl
  | [], _ :: _ => isFalse nofun
  | _ :: _, [] => isFalse nofun
  | a :: as, b :: bs =>
    match decEq a b with
    | isFalse h => isFalse fun e => h (List.cons.inj e).1
    | isTrue h =>
      match decEqParts as bs with
      | isFalse h' => isFalse fun e => h' (List.cons.inj e).2
      | isTrue h' => isTrue (by rw [h, h'])

end

instance : DecidableEq PropertyValue := decEq

def isFunctionName (name : String) : Bool := Text.hasStart "get_" name

/-- An argument of a call: a scalar as its text, anything else as compact text. -/
def argText (v : Json) : String := v.scalarText?.getD v.compact

/-- The arguments of a call: the items of a list, or one scalar. -/
def argTexts : Json → List String
  | .arr items => items.map argText
  | v => v.scalarText?.toList

mutual

/-- The property value that a document value stands for. A map with one field is a concatenation
when the field is a list named `concat`, and a call when its name is that of a function. -/
def ofJson : Json → PropertyValue
  | .null => other .null
  | .bool b => scalar (if b then "true" else "false")
  | .num n => scalar n.text
  | .str s => scalar s
  | .arr items => list items
  | .obj [] => complex []
  | .obj ((name, value) :: more) =>
    match more with
    | [] =>
      if name = "concat" then
        match value with
        | .arr parts => concat (ofJsons parts)
        | value => complex [(name, value)]
      else if isFunctionName name then call ⟨name, argTexts value⟩
      else complex [(name, value)]
    | more => complex ((name, value) :: more)

def ofJsons : List Json → List PropertyValue
  | [] => []
  | v :: vs => ofJson v :: ofJsons vs

end

def scalar? : PropertyValue → Option String
  | scalar text => some text
  | _ => none

end PropertyValue

end DeployPlan
