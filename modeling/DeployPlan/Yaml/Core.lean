import DeployPlan.Json.Reader

/-!
# The core schema

A plain text may stand for null, a truth value or a number; any other one is a text. Whole numbers
have a sign and decimal digits, or one of three bases; more digits after a zero make a text. One
that is too large for a word, though not for two, has no value.
-/
namespace DeployPlan.Yaml

def nullTexts : List String := ["", "~", "null", "Null", "NULL"]

def truth? : String → Option Bool
  | "true" => some true
  | "True" => some true
  | "TRUE" => some true
  | "false" => some false
  | "False" => some false
  | "FALSE" => some false
  | _ => none

/-- A text after the sign that may start it, and whether that is a minus. -/
def splitSign : List Char → Bool × List Char
  | '-' :: cs => (true, cs)
  | '+' :: cs => (false, cs)
  | cs => (false, cs)

/-- The number that digits of a base write; there has to be a digit. -/
def digits? (base : Nat) (cs : List Char) : Option Nat :=
  if cs.isEmpty then none else Text.radixValue? base cs

/-- The size of a whole number: digits after the mark of a base, or decimal digits of which only a
single one may be zero at the start. -/
def size? (cs : List Char) : Option Nat :=
  match cs with
  | '0' :: 'x' :: ds => digits? 16 ds
  | '0' :: 'o' :: ds => digits? 8 ds
  | '0' :: 'b' :: ds => digits? 2 ds
  | '0' :: _ :: _ => none
  | ds => digits? 10 ds

def whole? (cs : List Char) : Option Int :=
  let (negative, ds) := splitSign cs
  (size? ds).bind fun n =>
    if negative then (if n ≤ Nat.pow 2 127 then some (-(n : Int)) else none)
    else if n < Nat.pow 2 128 then some n else none

/-- Whether a text is decimal digits that start with a needless zero. -/
def isPadded (cs : List Char) : Bool :=
  match (splitSign cs).2 with
  | '0' :: d :: ds => (d :: ds).all Char.isDigit
  | _ => false

/-- The word of a decimal literal with an optional sign; there is none when it is too large. -/
def float? (cs : List Char) : Option UInt64 := do
  let (negative, ds) := splitSign cs
  let (l, rest) ← Decimal.Literal.scan? ds
  if rest.isEmpty then l.word? negative else none

/-- The names of infinity and of what is no number, which have no finite value. -/
def isUnbounded (s : String) : Bool :=
  [".inf", ".Inf", ".INF", "+.inf", "+.Inf", "+.INF", "-.inf", "-.Inf", "-.INF",
    ".nan", ".NaN", ".NAN"].contains s

def plainValue? (s : String) : Option Json :=
  let cs := s.toList
  if nullTexts.contains s then some .null
  else
    match truth? s, whole? cs with
    | some b, _ => some (.bool b)
    | none, some n => if Number.isWord n then some (.num (.int n)) else none
    | none, none =>
      if isUnbounded s then some .null
      else
        match if isPadded cs then none else float? cs with
        | some word => some (.num (.float word))
        | none => some (.str s)

/-! ## Tagged texts -/

/-- The kinds of value that the core schema has tags for. -/
inductive CoreTag where
  | null
  | bool
  | int
  | float
deriving DecidableEq, Repr

def coreTag? : String → Option CoreTag
  | "tag:yaml.org,2002:null" => some .null
  | "tag:yaml.org,2002:bool" => some .bool
  | "tag:yaml.org,2002:int" => some .int
  | "tag:yaml.org,2002:float" => some .float
  | _ => none

def CoreTag.value? (t : CoreTag) (s : String) : Option Json :=
  match t with
  | .null => if nullTexts.contains s && s ≠ "" then some .null else none
  | .bool => (truth? s).map .bool
  | .int => (whole? s.toList).bind fun n => if Number.isWord n then some (.num (.int n)) else none
  | .float =>
    if isUnbounded s then some .null else (float? s.toList).map fun word => .num (.float word)

/-- Whether a tag is one of a document's own, for which there are no values. -/
def isLocalTag (tag : String) : Bool := tag.toList.head? = some '!' && tag ≠ "!"

/-- The value of a scalar with a tag. Other tags than those of the core schema make it a text, but
the lone exclamation mark leaves a plain one as it is. -/
def taggedValue? (tag : String) (isPlain : Bool) (s : String) : Option Json :=
  if isLocalTag tag then none
  else
    match coreTag? tag with
    | some t => t.value? s
    | none => if isPlain && tag = "!" then plainValue? s else some (.str s)

end DeployPlan.Yaml
