import DeployPlan.Text.Blank
import DeployPlan.Text.Hex

/-!
# Ranges of code points

A property of characters is kept as the ranges of code points that have it. A table writes them in
hexadecimal digits: `300-34e 362` is a range and a single code point. A word that ends in a colon
gives a number to the ranges after it.
-/
namespace DeployPlan.Text

structure CodeRange where
  first : Nat
  last : Nat
deriving DecidableEq, Repr

def CodeRange.has (r : CodeRange) (n : Nat) : Bool := r.first ≤ n && n ≤ r.last

def inRanges (ranges : List CodeRange) (c : Char) : Bool := ranges.any (·.has c.toNat)

def hexNat (cs : List Char) : Nat := (radixValue? 16 cs).getD 0

def CodeRange.ofWord (word : List Char) : CodeRange :=
  let first := word.takeWhile (· ≠ '-')
  match word.drop first.length with
  | [] => ⟨hexNat first, hexNat first⟩
  | _ :: last => ⟨hexNat first, hexNat last⟩

def readRanges (table : String) : List CodeRange :=
  (wordsFrom [] table.toList).map CodeRange.ofWord

/-- The words of a table, each with the number that stands before it. -/
def numberedWords : Nat → List (List Char) → List (Nat × List Char)
  | _, [] => []
  | n, word :: words =>
    if word.getLast? = some ':' then numberedWords (hexNat word.dropLast) words
    else (n, word) :: numberedWords n words

/-- The ranges of a table, each with the number that stands before it. -/
def readClasses (table : String) : List (Nat × CodeRange) :=
  (numberedWords 0 (wordsFrom [] table.toList)).map fun (n, word) => (n, .ofWord word)

end DeployPlan.Text
