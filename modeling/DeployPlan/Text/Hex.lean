/-!
# Hexadecimal digits

The value of a digit of either case, and of a run of digits of a given length; the character that
such a number is the code point of.
-/
namespace DeployPlan.Text

def hexValue? (c : Char) : Option Nat :=
  if '0' ≤ c ∧ c ≤ '9' then some (c.toNat - '0'.toNat)
  else if 'a' ≤ c ∧ c ≤ 'f' then some (c.toNat - 'a'.toNat + 10)
  else if 'A' ≤ c ∧ c ≤ 'F' then some (c.toNat - 'A'.toNat + 10)
  else none

def isHexDigit (c : Char) : Bool := (hexValue? c).isSome

/-- The number that digits of a base write, if each is a digit of it. -/
def radixValue? (base : Nat) (cs : List Char) : Option Nat :=
  cs.foldlM (fun n c =>
    match hexValue? c with
    | some d => if d < base then some (base * n + d) else none
    | none => none) 0

/-- The number that exactly `width` hexadecimal digits write, and what follows them. -/
def hexNumber? (width : Nat) (cs : List Char) : Option (Nat × List Char) :=
  if (cs.take width).length = width then (radixValue? 16 (cs.take width)).map (·, cs.drop width)
  else none

/-- The character with a code point, unless that is half of a surrogate pair or too large. -/
def charOf? (n : Nat) : Option Char := if h : n.isValidChar then some (Char.ofNatAux n h) else none

end DeployPlan.Text
