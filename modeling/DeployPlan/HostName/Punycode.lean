import DeployPlan.Text.Hex

/-!
# Names in letters and digits

A label that starts with `xn--` stands for one with other characters. What follows are the letters
and digits of that label, a hyphen, and for each other character the distance from the one before
it. A distance counts the places where the character could have been put, the smallest characters
first, and is written in digits of growing weight. Main definition: `decode?`.
-/
namespace DeployPlan.HostName.Punycode

def base : Nat := 36

/-- The largest number that distances and places may reach. -/
def limit : Nat := 4294967295

def digit? (c : Char) : Option Nat :=
  if c.isLower then some (c.toNat - 'a'.toNat)
  else if c.isUpper then some (c.toNat - 'A'.toNat)
  else if c.isDigit then some (c.toNat - '0'.toNat + 26)
  else none

/-- The least value of a digit that is not the last one, at a position counted in bases. -/
def threshold (position bias : Nat) : Nat :=
  if position ≤ bias then 1 else if bias + 26 ≤ position then 26 else position - bias

/-- A distance scaled down until it is small, and the bases that were counted. -/
def scale : Nat → Nat → Nat → Nat × Nat
  | 0, distance, counted => (distance, counted)
  | n + 1, distance, counted =>
    if distance ≤ 455 then (distance, counted) else scale n (distance / 35) (counted + base)

/-- The bias for the distance after one, when a label has `size` characters. -/
def adapt (distance size : Nat) (isFirst : Bool) : Nat :=
  let halved := if isFirst then distance / 700 else distance / 2
  let total := halved + halved / size
  let (small, counted) := scale total total 0
  counted + base * small / (small + 38)

/-- A number of growing weights added to `sum`, and what follows its digits. -/
def readNumber? (bias : Nat) : Nat → Nat → Nat → List Char → Option (Nat × List Char)
  | _, _, _, [] => none
  | position, weight, sum, c :: cs =>
    match digit? c with
    | none => none
    | some d =>
      if (limit - sum) / weight < d then none
      else
        let sum := sum + d * weight
        let t := threshold position bias
        if d < t then some (sum, cs)
        else if limit / (base - t) < weight then none
        else readNumber? bias (position + base) (weight * (base - t)) sum cs

/-- A label with the other characters put in, `code` and `place` being the last one's code point and
the place after it. -/
def insertAll? : Nat → Nat → Nat → Nat → List Char → List Char → Option (List Char)
  | 0, _, _, _, _, _ => none
  | _ + 1, _, _, _, label, [] => some label
  | n + 1, bias, code, place, label, cs =>
    match readNumber? bias base 1 place cs with
    | none => none
    | some (sum, rest) =>
      let size := label.length + 1
      let here := sum % size
      match Text.charOf? (code + sum / size) with
      | none => none
      | some c =>
        insertAll? n (adapt (sum - place) size (place = 0)) (code + sum / size) (here + 1)
          (label.take here ++ c :: label.drop here) rest

/-- What stands before the last hyphen and what follows it. A hyphen at the start separates
nothing. -/
def splitLast (cs : List Char) : List Char × List Char :=
  match cs.reverse.dropWhile (· ≠ '-') with
  | _ :: before =>
    if before.isEmpty then ([], cs) else (before.reverse, cs.drop (before.length + 1))
  | [] => ([], cs)

def decode? (cs : List Char) : Option (List Char) :=
  let (plain, rest) := splitLast cs
  if plain.all fun c => c.toNat < 0x80 then insertAll? (rest.length + 1) 72 128 0 plain rest
  else none

end DeployPlan.HostName.Punycode
