import DeployPlan.Decimal.Binary64

/-!
# Decimal literals

A literal is digits, a point with digits on at least one side of it, and an exponent with an
optional sign. Its sign is read by the format that holds it.
-/
namespace DeployPlan.Decimal

def digitsValue (ds : List Char) : Nat :=
  ds.foldl (fun n d => 10 * n + (d.toNat - '0'.toNat)) 0

structure Literal where
  /-- The digits before the point. -/
  front : List Char
  /-- The digits after the point. -/
  back : List Char
  /-- The exponent that is written. -/
  power : Int
  /-- Neither a point nor an exponent was written. -/
  whole : Bool
deriving DecidableEq, Repr

/-- The number that the digits of a literal write, its point passed over. -/
def Literal.coefficient (l : Literal) : Nat := digitsValue (l.front ++ l.back)

/-- The exponent that goes with the coefficient: the value of a literal is
`coefficient · 10 ^ exponent`. -/
def Literal.exponent (l : Literal) : Int := l.power - l.back.length

/-- An exponent after its mark: a sign that may be missing and digits that may not. -/
def scanExponent? (cs : List Char) : Option (Int × List Char) :=
  let (negative, rest) := match cs with
    | '-' :: rest => (true, rest)
    | '+' :: rest => (false, rest)
    | rest => (false, rest)
  let ds := rest.takeWhile Char.isDigit
  if ds.isEmpty then none
  else
    let size : Int := digitsValue ds
    some (if negative then -size else size, rest.dropWhile Char.isDigit)

/-- The literal at the start of `cs`, and what follows it. -/
def Literal.scan? (cs : List Char) : Option (Literal × List Char) :=
  let front := cs.takeWhile Char.isDigit
  let rest := cs.dropWhile Char.isDigit
  let (back, pointed, rest) := match rest with
    | '.' :: rest => (rest.takeWhile Char.isDigit, true, rest.dropWhile Char.isDigit)
    | rest => ([], false, rest)
  if front.isEmpty && back.isEmpty then none
  else
    match rest with
    | c :: after =>
      if c = 'e' || c = 'E' then
        (scanExponent? after).map fun (power, after) => (⟨front, back, power, false⟩, after)
      else some (⟨front, back, 0, !pointed⟩, rest)
    | [] => some (⟨front, back, 0, !pointed⟩, rest)

def Literal.word? (negative : Bool) (l : Literal) : Option UInt64 :=
  ofDecimal? negative l.coefficient l.exponent

end DeployPlan.Decimal
