/-!
# Binary64 words as exact numbers

A finite word stands for `± significand · 2 ^ exponent`. Reading a decimal number picks the word
whose value is nearest, an exact tie going to the even significand. All arithmetic is on natural
numbers.
-/
namespace DeployPlan.Decimal

def isNegative (word : UInt64) : Bool := Nat.pow 2 63 ≤ word.toNat

def unsignedBits (word : UInt64) : Nat := word.toNat % Nat.pow 2 63

def infinityBits : Nat := 2047 * Nat.pow 2 52

/-- The exact size of a finite number: `significand · 2 ^ exponent`. -/
structure Magnitude where
  significand : Nat
  exponent : Int
deriving DecidableEq, Repr

/-- The least exponent of two that a word can hold. -/
def leastExponent : Int := -1074

def magnitude (word : UInt64) : Magnitude :=
  let biased := unsignedBits word / Nat.pow 2 52
  let fraction := unsignedBits word % Nat.pow 2 52
  if biased = 0 then ⟨fraction, leastExponent⟩
  else ⟨Nat.pow 2 52 + fraction, leastExponent + (biased - 1 : Nat)⟩

/-- A quotient rounded to the nearest whole number, a tie to the even one. -/
def roundDiv (num den : Nat) : Nat :=
  let q := num / den
  match compare (2 * (num % den)) den with
  | .lt => q
  | .gt => q + 1
  | .eq => if q % 2 = 0 then q else q + 1

/-- `num / den` over two to the power `e`, as numerator and denominator. -/
def scaleDown (num den : Nat) (e : Int) : Nat × Nat :=
  (num * Nat.pow 2 (-e).toNat, den * Nat.pow 2 e.toNat)

/-- The unsigned word nearest to `num / den`. Beyond the largest number it is not finite. -/
def nearestBits (num den : Nat) : Nat :=
  if num = 0 then 0
  else
    let size : Int := (num.log2 : Int) - (den.log2 : Int)
    let low := max (size - 53) leastExponent
    let (n, d) := scaleDown num den low
    let e := if n / d < Nat.pow 2 53 then low else low + 1
    let (n, d) := scaleDown num den e
    (e - leastExponent).toNat * Nat.pow 2 52 + roundDiv n d

/-- Decimal exponents beyond this size decide the word alone. -/
def exponentLimit : Int := 400

/-- The word nearest to `± coefficient · 10 ^ exponent`, unless that number is too large. -/
def ofDecimal? (negative : Bool) (coefficient : Nat) (exponent : Int) : Option UInt64 :=
  let leading : Int := exponent + ((Nat.toDigits 10 coefficient).length : Int)
  let bits :=
    if coefficient = 0 || leading < -exponentLimit then 0
    else if exponentLimit < leading then infinityBits
    else nearestBits (coefficient * Nat.pow 10 exponent.toNat) (Nat.pow 10 (-exponent).toNat)
  if bits < infinityBits then
    some (UInt64.ofNat (if negative then Nat.pow 2 63 + bits else bits))
  else none

end DeployPlan.Decimal
