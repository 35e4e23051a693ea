/-!
# Paths

A path is kept as its text. Joining sets a separator only where one is missing, and an absolute
right side stands alone.
-/
namespace DeployPlan

structure Path where
  text : String
deriving DecidableEq, Repr

namespace Path

def isAbsolute (p : Path) : Bool := p.text.toList.head? = some '/'

def endsInSeparator (p : Path) : Bool := p.text.toList.getLast? = some '/'

def join (base : Path) (p : Path) : Path :=
  if p.isAbsolute then p
  else if base.text = "" || base.endsInSeparator then ⟨base.text ++ p.text⟩
  else ⟨base.text ++ "/" ++ p.text⟩

def joinAll (base : Path) (names : List String) : Path :=
  names.foldl (fun p name => p.join ⟨name⟩) base

/-- The texts between separators, with `piece` the one being read in reverse. -/
def piecesFrom (piece : List Char) : List Char → List String
  | [] => [String.ofList piece.reverse]
  | c :: cs =>
    if c = '/' then String.ofList piece.reverse :: piecesFrom [] cs else piecesFrom (c :: piece) cs

/-- The texts between separators, empty ones included. -/
def pieces (p : Path) : List String := piecesFrom [] p.text.toList

def names (p : Path) : List String := p.pieces.filter (· ≠ "")

/-- The names to follow one by one. A separator at the end asks for a directory, as `.` does. -/
def steps (p : Path) : List String := if p.endsInSeparator then p.names ++ ["."] else p.names

def isIdle (piece : String) : Bool := piece = "" || piece = "."

/-- The pieces up to the last one that names something. -/
def dropIdleEnd (ps : List String) : List String := (ps.reverse.dropWhile isIdle).reverse

/-- The last name, unless it asks for the directory above. -/
def fileName? (p : Path) : Option String :=
  match (p.pieces.filter fun piece => !isIdle piece).getLast? with
  | some name => if name = ".." then none else some name
  | none => none

/-- The path above the last name, if there is a last name. -/
def parent? (p : Path) : Option Path :=
  match p.pieces with
  | [] => none
  | first :: rest =>
    match dropIdleEnd rest with
    | [] =>
      if first = "" then none else some ⟨""⟩
    | kept =>
      match dropIdleEnd kept.dropLast with
      | [] => some ⟨if first = "" then "/" else first⟩
      | above => some ⟨"/".intercalate (first :: above)⟩

end Path

end DeployPlan
