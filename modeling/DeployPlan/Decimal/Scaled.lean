import DeployPlan.Decimal.Literal

/-!
# Reading by scaling

A quick way to read a decimal literal: its leading digits make a whole number, which is rounded to
binary64 and then scaled by a rounded power of ten, the result rounded again. A short literal is
read as the nearest word; a long one may be read as a neighbour of that word.
-/
namespace DeployPlan.Decimal

/-- Digits are taken into a whole number while it stays below this bound. -/
def wordEnd : Nat := Nat.pow 2 64

/-- The number that `n` becomes when digits are written behind it, as many as keep it below the
bound, and the digits left over. -/
def fill (n : Nat) : List Char → Nat × List Char
  | [] => (n, [])
  | d :: ds =>
    let next := 10 * n + (d.toNat - '0'.toNat)
    if next < wordEnd then fill next ds else (n, d :: ds)

/-- The number that is nearest to a quotient and has a word. -/
def nearest (num den : Nat) : Magnitude := magnitude (UInt64.ofNat (nearestBits num den))

def Magnitude.timesBits (x y : Magnitude) : Nat :=
  let e := x.exponent + y.exponent
  nearestBits (x.significand * y.significand * Nat.pow 2 e.toNat) (Nat.pow 2 (-e).toNat)

def Magnitude.overBits (x y : Magnitude) : Nat :=
  let e := x.exponent - y.exponent
  nearestBits (x.significand * Nat.pow 2 e.toNat) (y.significand * Nat.pow 2 (-e).toNat)

/-- The largest power of ten that has a word. -/
def powerLimit : Nat := 308

/-- The number that is nearest to a power of ten. -/
def tenTo (n : Nat) : Magnitude := nearest (Nat.pow 10 n) 1

/-- The word of a number divided by a power of ten, in steps of the largest power. A number that has
become zero stays zero. -/
def divideBits (x : Magnitude) (n : Nat) : Nat :=
  if n ≤ powerLimit then x.overBits (tenTo n)
  else if x.significand = 0 then 0
  else
    divideBits (magnitude (UInt64.ofNat (x.overBits (tenTo powerLimit)))) (n - powerLimit)
termination_by n
decreasing_by simp only [powerLimit] at *; omega

/-- The word of a number multiplied by a power of ten; one without a word is not finite. -/
def multiplyBits (x : Magnitude) (n : Nat) : Nat :=
  if n ≤ powerLimit then x.timesBits (tenTo n)
  else if x.significand = 0 then 0
  else infinityBits

/-- The word of a signed literal read by scaling, unless it is too large. The digits after the point
may fill up a number that those before it have left over. -/
def Literal.scaled? (negative : Bool) (l : Literal) : Option UInt64 :=
  let (n, skipped) := fill 0 l.front
  let (n, dropped) := fill n l.back
  let exponent : Int := l.power + skipped.length - (l.back.length - dropped.length : Nat)
  let x := nearest n 1
  let bits :=
    if 0 ≤ exponent then multiplyBits x exponent.toNat else divideBits x (-exponent).toNat
  if bits < infinityBits then
    some (UInt64.ofNat (if negative then Nat.pow 2 63 + bits else bits))
  else none

end DeployPlan.Decimal
