import DeployPlan.Decimal.Shortest
import DeployPlan.Json.Basic

/-!
# The text of document values

Compact text has no spaces. Pretty text indents by two spaces, one item or field a line, and keeps
empty lists and objects closed. Both escape only the quote, the backslash and characters below the
space.
-/
namespace DeployPlan

/-- Exponents from minus five to fifteen are written positionally. -/
def Number.layout : Decimal.Layout := ⟨-5, 15⟩

/-- A whole number in decimal digits, any other by its shortest decimal. -/
def Number.text : Number → String
  | .int value => toString value
  | .float word => Number.layout.writeWord word

namespace Json

def hexPair (n : Nat) : String := String.ofList [Nat.digitChar (n / 16), Nat.digitChar (n % 16)]

def escapeChar (c : Char) : String :=
  if c = '"' then "\\\""
  else if c = '\\' then "\\\\"
  else if c = '\n' then "\\n"
  else if c = '\r' then "\\r"
  else if c = '\t' then "\\t"
  else if c = '\x08' then "\\b"
  else if c = '\x0c' then "\\f"
  else if c.toNat < 32 then "\\u00" ++ hexPair c.toNat
  else c.toString

def quote (s : String) : String :=
  "\"" ++ s.toList.foldl (fun out c => out ++ escapeChar c) "" ++ "\""

mutual

def compact : Json → String
  | null => "null"
  | bool true => "true"
  | bool false => "false"
  | num n => n.text
  | str s => quote s
  | arr [] => "[]"
  | arr (v :: vs) => "[" ++ compact v ++ compactItems vs
  | obj [] => "\x7b\x7d"
  | obj ((k, v) :: fs) => "\x7b" ++ quote k ++ ":" ++ compact v ++ compactFields fs

def compactItems : List Json → String
  | [] => "]"
  | v :: vs => "," ++ compact v ++ compactItems vs

def compactFields : List (String × Json) → String
  | [] => "\x7d"
  | (k, v) :: fs => "," ++ quote k ++ ":" ++ compact v ++ compactFields fs

end

/-- The start of a line that stands `depth` levels deep. -/
def newline (depth : Nat) : String := "\n" ++ String.ofList (List.replicate (2 * depth) ' ')

mutual

/-- The pretty text of a value whose first line stands `depth` levels deep. -/
def prettyAt (depth : Nat) : Json → String
  | null => "null"
  | bool true => "true"
  | bool false => "false"
  | num n => n.text
  | str s => quote s
  | arr [] => "[]"
  | arr (v :: vs) =>
    "[" ++ newline (depth + 1) ++ prettyAt (depth + 1) v ++ prettyItems depth vs
  | obj [] => "\x7b\x7d"
  | obj ((k, v) :: fs) =>
    "\x7b" ++ newline (depth + 1) ++ quote k ++ ": " ++ prettyAt (depth + 1) v
      ++ prettyFields depth fs

def prettyItems (depth : Nat) : List Json → String
  | [] => newline depth ++ "]"
  | v :: vs => "," ++ newline (depth + 1) ++ prettyAt (depth + 1) v ++ prettyItems depth vs

def prettyFields (depth : Nat) : List (String × Json) → String
  | [] => newline depth ++ "\x7d"
  | (k, v) :: fs =>
    "," ++ newline (depth + 1) ++ quote k ++ ": " ++ prettyAt (depth + 1) v
      ++ prettyFields depth fs

end

def pretty (v : Json) : String := prettyAt 0 v

end Json

end DeployPlan
