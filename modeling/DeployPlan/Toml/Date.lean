/-!
# Dates

A date is a year, a month and a day, a time of day, or both, and then perhaps with the distance from
the common time. Days are counted as the calendar has them. Main definition: `readDate?`.
-/
namespace DeployPlan.Toml

/-- The number that exactly `width` digits write, if it is within bounds, and what follows it. -/
def readField? (width least most : Nat) (cs : List Char) : Option (Nat × List Char) :=
  let ds := cs.take width
  let n := ds.foldl (fun n d => 10 * n + (d.toNat - '0'.toNat)) 0
  if ds.length = width && ds.all Char.isDigit && least ≤ n && n ≤ most then
    some (n, cs.drop width)
  else none

def afterChar? (c : Char) : List Char → Option (List Char)
  | [] => none
  | d :: ds => if c = d then some ds else none

def isLeapYear (year : Nat) : Bool := year % 4 = 0 && (year % 100 ≠ 0 || year % 400 = 0)

def daysOf (year month : Nat) : Nat :=
  if month = 2 then (if isLeapYear year then 29 else 28)
  else if [4, 6, 9, 11].contains month then 30
  else 31

def afterDay? (cs : List Char) : Option (List Char) := do
  let (year, rest) ← readField? 4 0 9999 cs
  let (month, rest) ← readField? 2 1 12 (← afterChar? '-' rest)
  let (_, rest) ← readField? 2 1 (daysOf year month) (← afterChar? '-' rest)
  return rest

/-- What follows the parts of a second, if there are any. -/
def afterFraction? : List Char → Option (List Char)
  | '.' :: cs => if cs.head?.any Char.isDigit then some (cs.dropWhile Char.isDigit) else none
  | cs => some cs

def afterTime? (cs : List Char) : Option (List Char) := do
  let (_, rest) ← readField? 2 0 23 cs
  let (_, rest) ← readField? 2 0 59 (← afterChar? ':' rest)
  let (_, rest) ← readField? 2 0 60 (← afterChar? ':' rest)
  afterFraction? rest

def afterOffset? : List Char → Option (List Char)
  | c :: cs =>
    if c = 'Z' || c = 'z' then some cs
    else if c = '+' || c = '-' then do
      let (_, rest) ← readField? 2 0 23 cs
      let (_, rest) ← readField? 2 0 59 (← afterChar? ':' rest)
      return rest
    else some (c :: cs)
  | [] => some []

def startsTime (cs : List Char) : Bool :=
  (cs.take 2).length = 2 && (cs.take 2).all Char.isDigit && (cs.drop 2).head? = some ':'

/-- What follows a date. A blank may stand between day and time. -/
def afterDate? (cs : List Char) : Option (List Char) :=
  if startsTime cs then afterTime? cs
  else do
    match ← afterDay? cs with
    | c :: rest =>
      if c = 'T' || c = 't' then afterOffset? (← afterTime? rest)
      else if c = ' ' && startsTime rest then afterOffset? (← afterTime? rest)
      else return c :: rest
    | [] => return []

def readDate? (cs : List Char) : Option (List Char × List Char) :=
  (afterDate? cs).map fun rest => (cs.take (cs.length - rest.length), rest)

end DeployPlan.Toml
