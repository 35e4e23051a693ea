import DeployPlan.HostName.Mapping
import DeployPlan.HostName.Punycode
import DeployPlan.Text.Composition
import DeployPlan.Text.Direction

/-!
# Host names

A host name is labels between dots. Its text is mapped and composed; labels that stand for others
are decoded. No label may start with a mark or hold a character that mapping would not leave, and in
a name with characters from right to left each label keeps one direction. Main definition:
`ofText?`.
-/
namespace DeployPlan.HostName

open Text

/-- The texts between occurrences of a separator, with `piece` the one being read in reverse. -/
def splitFrom (sep : Char) (piece : List Char) : List Char → List (List Char)
  | [] => [piece.reverse]
  | c :: cs =>
    if c = sep then piece.reverse :: splitFrom sep [] cs else splitFrom sep (c :: piece) cs

def split (sep : Char) (cs : List Char) : List (List Char) := splitFrom sep [] cs

def isLabel (label : List Char) : Bool := !label.head?.any isMark && label.all isKept

/-- What a label starts with when it stands for another one. -/
def encodedStart : List Char := ['x', 'n', '-', '-']

def readLabel? (label : List Char) : Option (List Char) :=
  if encodedStart.isPrefixOf label then
    match Punycode.decode? (label.drop encodedStart.length) with
    | some decoded => if isComposed decoded && isLabel decoded then some decoded else none
    | none => none
  else if isLabel label then some label
  else none

/-- Whether a label holds what makes its name one of mixed directions. -/
def isTurned (label : List Char) : Bool :=
  label.any fun c => direction c = .right || direction c = .arabic

/-- Whether a direction may follow in a label that is written from left to right. -/
def fitsLeft : Direction → Bool
  | .left | .european | .neutral | .mark => true
  | _ => false

/-- Whether a direction may follow in a label that is written from right to left. -/
def fitsRight : Direction → Bool
  | .right | .arabic | .european | .neutral | .mark => true
  | _ => false

/-- Whether a label keeps one direction. Its first character sets the direction and a character of
that direction, or a digit, ends it, marks aside; both kinds of digits together are refused. -/
def keepsDirection (label : List Char) : Bool :=
  match label.map direction with
  | [] => true
  | first :: rest =>
    let last := (rest.reverse.dropWhile (· = .mark)).head?.getD first
    match first with
    | .left => rest.all fitsLeft && (last = .left || last = .european)
    | .right =>
      rest.all fitsRight && (last = .right || last = .european || last = .arabic) &&
        !(rest.contains .european && rest.contains .arabic)
    | _ => false

def labels? (cs : List Char) : Option (List (List Char)) := do
  let mapped ← mapText? cs
  let labels ← (split '.' (compose mapped)).mapM readLabel?
  if labels.any isTurned && !labels.all keepsDirection then none else some labels

/-- The name that a text writes, in the characters that it stands for. -/
def ofText? (cs : List Char) : Option (List Char) := (labels? cs).map (['.'].intercalate ·)

end DeployPlan.HostName
