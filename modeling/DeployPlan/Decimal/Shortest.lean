import DeployPlan.Decimal.Binary64

/-!
# The shortest decimal that reads back

A finite word owns the interval of reals that round to it, the ends included when its significand
is even. The shortest decimal is the point of the coarsest decimal grid in that interval; of two
such points the nearer is taken, and an exact tie goes to the even one.
-/
namespace DeployPlan.Decimal

/-- A decimal number `coefficient · 10 ^ exponent`. -/
structure Scientific where
  coefficient : Nat
  exponent : Int
deriving DecidableEq, Repr

/-- How many decimal digits a number has; zero has none. -/
def digitCount (n : Nat) : Nat := if n = 0 then 0 else (Nat.toDigits 10 n).length

namespace Magnitude

/-- Four times the significand below which a real rounds away, in units of a quarter. -/
def lowQuarters (m : Magnitude) : Nat :=
  if m.significand = Nat.pow 2 52 && leastExponent < m.exponent then 4 * m.significand - 1
  else 4 * m.significand - 2

/-- Four times the significand above which a real rounds away, in units of a quarter. -/
def highQuarters (m : Magnitude) : Nat := 4 * m.significand + 2

/-- The factor that a grid point on `10 ^ k` takes in comparisons with quarters. -/
def gridFactor (m : Magnitude) (k : Int) : Nat :=
  Nat.pow 10 k.toNat * Nat.pow 2 (2 - m.exponent).toNat

/-- The factor that quarters take in comparisons with grid points on `10 ^ k`. -/
def quarterFactor (m : Magnitude) (k : Int) : Nat :=
  Nat.pow 2 (m.exponent - 2).toNat * Nat.pow 10 (-k).toNat

/-- Whether the point `d · 10 ^ k` rounds to the number. -/
def readsBack (m : Magnitude) (k : Int) (d : Nat) : Bool :=
  let point := d * m.gridFactor k
  let low := m.lowQuarters * m.quarterFactor k
  let high := m.highQuarters * m.quarterFactor k
  if m.significand % 2 = 0 then low ≤ point && point ≤ high else low < point && point < high

def leadingExponent (m : Magnitude) : Int :=
  let num := m.significand * Nat.pow 2 m.exponent.toNat
  let den := Nat.pow 2 (-m.exponent).toNat
  if den ≤ num then (digitCount (num / den) : Int) - 1
  else -(digitCount ((den + num - 1) / num - 1) : Int)

/-- The neighbour of the number on the grid `10 ^ k` that reads back, if one does. -/
def onGrid? (m : Magnitude) (k : Int) : Option Scientific :=
  let value := 4 * m.significand * m.quarterFactor k
  let unit := m.gridFactor k
  let d := value / unit
  match m.readsBack k d, m.readsBack k (d + 1) with
  | false, false => none
  | true, false => some ⟨d, k⟩
  | false, true => some ⟨d + 1, k⟩
  | true, true =>
    match compare (2 * (value % unit)) unit with
    | .lt => some ⟨d, k⟩
    | .gt => some ⟨d + 1, k⟩
    | .eq => if d % 2 = 0 then some ⟨d, k⟩ else some ⟨d + 1, k⟩

/-- The shortest decimal that reads back: the first of the grids with one to seventeen digits. -/
def shortest (m : Magnitude) : Scientific :=
  if m.significand = 0 then ⟨0, 0⟩
  else
    let top := m.leadingExponent
    let found := (List.range 17).findSome? fun (n : Nat) => m.onGrid? (top - (n : Int))
    found.getD ⟨m.significand, m.exponent⟩

end Magnitude

/-- Which exponents of the leading digit are written positionally. -/
structure Layout where
  plainFrom : Int
  plainThrough : Int

/-- Digits with trailing zeros dropped, one digit at least. -/
def trimDigits (ds : List Char) : List Char :=
  match (ds.reverse.dropWhile (· == '0')).reverse with
  | [] => ['0']
  | kept => kept

/-- A decimal number laid out: a positional form has a digit after the point, a scientific form
has a sign in front of a positive exponent. -/
def Layout.write (layout : Layout) (x : Scientific) : String :=
  let written := Nat.toDigits 10 x.coefficient
  let ds := trimDigits written
  let e : Int := x.exponent + (written.length : Int) - 1
  if layout.plainFrom ≤ e ∧ e ≤ layout.plainThrough then
    if e < 0 then
      "0." ++ String.ofList (List.replicate (-e - 1).toNat '0' ++ ds)
    else
      let whole := e.toNat + 1
      let front := ds.take whole ++ List.replicate (whole - ds.length) '0'
      let back := ds.drop whole
      String.ofList front ++ "." ++ String.ofList (if back.isEmpty then ['0'] else back)
  else
    let mark := if e < 0 then "e-" else "e+"
    let front := String.ofList (ds.take 1)
    let back := String.ofList (ds.drop 1)
    (if back.isEmpty then front else front ++ "." ++ back) ++ mark ++ toString e.natAbs

/-- The text of a finite word: its sign, also that of zero, and its shortest decimal. -/
def Layout.writeWord (layout : Layout) (word : UInt64) : String :=
  (if isNegative word then "-" else "") ++ layout.write (magnitude word).shortest

end DeployPlan.Decimal
