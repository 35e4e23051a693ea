import DeployPlan.Entries

/-!
# Document values

The values of a decoded document. An object keeps its fields in the order of the text; a number is
a whole number between the bounds of signed and unsigned 64-bit words, or a binary64 word.
-/
namespace DeployPlan

/-- A number as a document holds it. -/
inductive Number where
  | int (value : Int)
  | float (word : UInt64)
deriving DecidableEq, Repr, Inhabited

inductive Json where
  | null
  | bool (value : Bool)
  | num (value : Number)
  | str (text : String)
  | arr (items : List Json)
  | obj (fields : List (String × Json))
deriving Repr, Inhabited

abbrev Fields := List (String × Json)

namespace Json

mutual

def decEq : (a b : Json) → Decidable (a = b)
  | null, null => isTrue rfl
  | bool a, bool b => if h : a = b then isTrue (h ▸ rfl) else isFalse fun e => h (Json.bool.inj e)
  | num a, num b => if h : a = b then isTrue (h ▸ rfl) else isFalse fun e => h (Json.num.inj e)
  | str a, str b => if h : a = b then isTrue (h ▸ rfl) else isFalse fun e => h (Json.str.inj e)
  | arr a, arr b =>
    match decEqItems a b with
    | isTrue h => isTrue (h ▸ rfl)
    | isFalse h => isFalse fun e => h (Json.arr.inj e)
  | obj a, obj b =>
    match decEqFields a b with
    | isTrue h => isTrue (h ▸ rfl)
    | isFalse h => isFalse fun e => h (Json.obj.inj e)
  | null, bool _ => isFalse nofun
  | null, num _ => isFalse nofun
  | null, str _ => isFalse nofun
  | null, arr _ => isFalse nofun
  | null, obj _ => isFalse nofun
  | bool _, null => isFalse nofun
  | bool _, num _ => isFalse nofun
  | bool _, str _ => isFalse nofun
  | bool _, arr _ => isFalse nofun
  | bool _, obj _ => isFalse nofun
  | num _, null => isFalse nofun
  | num _, bool _ => isFalse nofun
  | num _, str _ => isFalse nofun
  | num _, arr _ => isFalse nofun
  | num _, obj _ => isFalse nofun
  | str _, null => isFalse nofun
  | str _, bool _ => isFalse nofun
  | str _, num _ => isFalse nofun
  | str _, arr _ => isFalse nofun
  | str _, obj _ => isFalse nofun
  | arr _, null => isFalse nofun
  | arr _, bool _ => isFalse nofun
  | arr _, num _ => isFalse nofun
  | arr _, str _ => isFalse nofun
  | arr _, obj _ => isFalse nofun
  | obj _, null => isFalse nofun
  | obj _, bool _ => isFalse nofun
  | obj _, num _ => isFalse nofun
  | obj _, str _ => isFalse nofun
  | obj _, arr _ => isFalse nofun

def decEqItems : (a b : List Json) → Decidable (a = b)
  | [], [] => isTrue rfl
  | [], _ :: _ => isFalse nofun
  | _ :: _, [] => isFalse nofun
  | a :: as, b :: bs =>
    match decEq a b with
    | isFalse h => isFalse fun e => h (List.cons.inj e).1
    | isTrue h =>
      match decEqItems as bs with
      | isFalse h' => isFalse fun e => h' (List.cons.inj e).2
      | isTrue h' => isTrue (by rw [h, h'])

def decEqFields : (a b : List (String × Json)) → Decidable (a = b)
  | [], [] => isTrue rfl
  | [], _ :: _ => isFalse nofun
  | _ :: _, [] => isFalse nofun
  | (k, a) :: as, (l, b) :: bs =>
    if hk : k = l then
      match decEq a b with
      | isFalse h => isFalse fun e => h (Prod.mk.inj (List.cons.inj e).1).2
      | isTrue h =>
        match decEqFields as bs with
        | isFalse h' => isFalse fun e => h' (List.cons.inj e).2
        | isTrue h' => isTrue (by rw [hk, h, h'])
    else isFalse fun e => hk (Prod.mk.inj (List.cons.inj e).1).1

end

instance : DecidableEq Json := decEq

def asObject? : Json → Option Fields
  | obj fields => some fields
  | _ => none

def asArray? : Json → Option (List Json)
  | arr items => some items
  | _ => none

def asString? : Json → Option String
  | str text => some text
  | _ => none

/-- The field `name` of an object; any other value has no fields. -/
def field? (name : String) : Json → Option Json
  | obj fields => Entries.get? name fields
  | _ => none

def ofNat (n : Nat) : Json := num (.int n)

def ofTexts (ts : List String) : Json := arr (ts.map str)

def ofOption (v : Option Json) : Json := v.getD null

end Json

end DeployPlan
