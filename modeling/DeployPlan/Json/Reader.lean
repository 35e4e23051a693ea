import DeployPlan.Decimal.Scaled
import DeployPlan.Json.Basic
import DeployPlan.Text.Hex

/-!
# Reading document values from text

The reader keeps fields in the order of the text. A whole number inside the bounds of signed and
unsigned 64-bit words stays whole; any other literal, and minus zero, is a binary64 word, read by
scaling.
-/
namespace DeployPlan

def Number.leastWord : Int := -9223372036854775808

/-- The first whole number that no signed 64-bit word holds. -/
def Number.signedEnd : Int := 9223372036854775808

/-- The first whole number that no unsigned 64-bit word holds. -/
def Number.unsignedEnd : Int := 18446744073709551616

/-- Whether a whole number fits a signed or an unsigned 64-bit word. -/
def Number.isWord (n : Int) : Bool := leastWord ≤ n && n < unsignedEnd

/-- The number that a signed literal writes, unless it is too large. -/
def Number.ofLiteral? (negative : Bool) (l : Decimal.Literal) : Option Number :=
  let value : Int := if negative then -(l.coefficient : Int) else l.coefficient
  if l.whole && Number.isWord value && !(negative && l.coefficient = 0) then some (.int value)
  else (l.scaled? negative).map .float

namespace Json

def skipSpace : List Char → List Char
  | c :: cs => if c = ' ' || c = '\t' || c = '\n' || c = '\r' then skipSpace cs else c :: cs
  | [] => []

/-- The character of a `\u` escape whose marker is read, a pair of surrogates taken together. -/
def unicodeEscape? (cs : List Char) : Option (Char × List Char) := do
  let (high, rest) ← Text.hexNumber? 4 cs
  if 0xD800 ≤ high && high < 0xDC00 then
    match rest with
    | '\\' :: 'u' :: rest =>
      let (low, rest) ← Text.hexNumber? 4 rest
      if 0xDC00 ≤ low && low < 0xE000 then
        some (Char.ofNat (0x10000 + (high - 0xD800) * 0x400 + (low - 0xDC00)), rest)
      else none
    | _ => none
  else if 0xDC00 ≤ high && high < 0xE000 then none
  else some (Char.ofNat high, rest)

def plainEscape? : Char → Option Char
  | '"' => some '"'
  | '\\' => some '\\'
  | '/' => some '/'
  | 'b' => some '\x08'
  | 'f' => some '\x0c'
  | 'n' => some '\n'
  | 'r' => some '\r'
  | 't' => some '\t'
  | _ => none

/-- The rest of a quoted text, `done` being what is read of it in reverse. -/
def readQuoted : Nat → List Char → List Char → Option (String × List Char)
  | 0, _, _ => none
  | _ + 1, _, [] => none
  | n + 1, done, c :: cs =>
    if c = '"' then some (String.ofList done.reverse, cs)
    else if c = '\\' then
      match cs with
      | 'u' :: cs =>
        match unicodeEscape? cs with
        | some (c, cs) => readQuoted n (c :: done) cs
        | none => none
      | e :: cs =>
        match plainEscape? e with
        | some c => readQuoted n (c :: done) cs
        | none => none
      | [] => none
    else if c.toNat < 32 then none
    else readQuoted n (c :: done) cs

def keyword? (word : String) (value : Json) (cs : List Char) : Option (Json × List Char) :=
  if word.toList.isPrefixOf cs then some (value, cs.drop word.length) else none

def readNumber? (cs : List Char) : Option (Json × List Char) := do
  let (negative, cs) := match cs with
    | '-' :: cs => (true, cs)
    | cs => (false, cs)
  let (l, rest) ← Decimal.Literal.scan? cs
  let n ← Number.ofLiteral? negative l
  some (num n, rest)

mutual

def readValue : Nat → List Char → Option (Json × List Char)
  | 0, _ => none
  | n + 1, cs =>
    match skipSpace cs with
    | [] => none
    | c :: cs =>
      if c = '\x7b' then
        match skipSpace cs with
        | '\x7d' :: cs => some (obj [], cs)
        | cs => (readFields n [] cs).map fun (fs, cs) => (obj fs, cs)
      else if c = '[' then
        match skipSpace cs with
        | ']' :: cs => some (arr [], cs)
        | cs => (readItems n [] cs).map fun (vs, cs) => (arr vs, cs)
      else if c = '"' then
        (readQuoted (cs.length + 1) [] cs).map fun (s, cs) => (str s, cs)
      else if c = 't' then keyword? "true" (bool true) (c :: cs)
      else if c = 'f' then keyword? "false" (bool false) (c :: cs)
      else if c = 'n' then keyword? "null" null (c :: cs)
      else readNumber? (c :: cs)

/-- The items up to the closing bracket, `done` being those read before in reverse. -/
def readItems : Nat → List Json → List Char → Option (List Json × List Char)
  | 0, _, _ => none
  | n + 1, done, cs =>
    match readValue n cs with
    | none => none
    | some (v, cs) =>
      match skipSpace cs with
      | ',' :: cs => readItems n (v :: done) cs
      | ']' :: cs => some ((v :: done).reverse, cs)
      | _ => none

/-- The fields up to the closing brace, `done` being those read before in reverse. -/
def readFields : Nat → Fields → List Char → Option (Fields × List Char)
  | 0, _, _ => none
  | n + 1, done, cs =>
    match skipSpace cs with
    | '"' :: cs =>
      match readQuoted (cs.length + 1) [] cs with
      | none => none
      | some (k, cs) =>
        match skipSpace cs with
        | ':' :: cs =>
          match readValue n cs with
          | none => none
          | some (v, cs) =>
            match skipSpace cs with
            | ',' :: cs => readFields n ((k, v) :: done) cs
            | '\x7d' :: cs => some (((k, v) :: done).reverse, cs)
            | _ => none
        | _ => none
    | _ => none

end

def read? (text : String) : Option Json :=
  let cs := text.toList
  match readValue (2 * cs.length + 1) cs with
  | some (v, rest) => if (skipSpace rest).isEmpty then some v else none
  | none => none

end Json

end DeployPlan
