import DeployPlan.Text.Hex
import DeployPlan.Yaml.Cursor

/-!
# Tags and directives

A tag says what kind of value a node is. It is written whole between angle brackets, or as a handle
and a suffix; the start that a handle stands for may be set by a directive. Another directive names
the version of the format.
-/
namespace DeployPlan.Yaml

def isNameChar (c : Char) : Bool := c.isAlphanum || c = '_' || c = '-'

/-- A tag as it is written: what its handle stands for comes before its suffix. -/
structure Tag where
  handle : String
  suffix : String
deriving DecidableEq, Repr

namespace Tag

/-- Whether a character may stand in a tag. Commas and brackets may where a tag is `whole`. -/
def isChar (whole : Bool) (c : Char) : Bool :=
  isNameChar c || ";/?:@&=+$.!~*'()".toList.contains c || (whole && ",[]".toList.contains c)

/-- The byte that an escape stands for, and what follows it. -/
def escapedByte? : List Char → Option (UInt8 × List Char)
  | '%' :: cs => (Text.hexNumber? 2 cs).map fun (n, rest) => (UInt8.ofNat n, rest)
  | _ => none

/-- The bytes of some escapes in a row, and what follows them. -/
def escapedBytes? : Nat → List Char → Option (List UInt8 × List Char)
  | 0, cs => some ([], cs)
  | n + 1, cs => do
    let (b, rest) ← escapedByte? cs
    let (bs, rest) ← escapedBytes? n rest
    return (b :: bs, rest)

/-- How many bytes a character takes that starts with a byte. -/
def width? (b : UInt8) : Option Nat :=
  if b < 0x80 then some 1
  else if b < 0xC0 then none
  else if b < 0xE0 then some 2
  else if b < 0xF0 then some 3
  else if b < 0xF8 then some 4
  else none

/-- The characters that escapes of one character stand for, and what follows them. -/
def escaped? (cs : List Char) : Option (List Char × List Char) := do
  let (first, _) ← escapedByte? cs
  let (bytes, rest) ← escapedBytes? (← width? first) cs
  let text ← String.fromUTF8? ⟨bytes.toArray⟩
  return (text.toList, rest)

def readText? (whole : Bool) : Nat → List Char → Option (List Char × List Char)
  | 0, _ => none
  | _ + 1, [] => some ([], [])
  | n + 1, c :: cs =>
    if c = '%' then do
      let (text, rest) ← escaped? (c :: cs)
      let (more, rest) ← readText? whole n rest
      return (text ++ more, rest)
    else if isChar whole c then (readText? whole n cs).map fun (more, rest) => (c :: more, rest)
    else some ([], c :: cs)

/-- A handle: an exclamation mark, or a name between two of them. -/
def readHandle (cs : List Char) : List Char × List Char :=
  let name := (cs.drop 1).takeWhile isNameChar
  let rest := cs.drop (name.length + 1)
  match rest with
  | '!' :: rest => ('!' :: name ++ ['!'], rest)
  | _ => ('!' :: name, rest)

/-- A tag whose exclamation mark comes next, and what follows it. -/
def read? (cs : List Char) : Option (Tag × List Char) :=
  match cs with
  | _ :: '<' :: inner => do
    let (text, rest) ← readText? true (inner.length + 1) inner
    match rest with
    | '>' :: rest => if text.isEmpty then none else some (⟨"", String.ofList text⟩, rest)
    | _ => none
  | _ => do
    let (handle, rest) := readHandle cs
    let (text, rest) ← readText? false (rest.length + 1) rest
    if 1 < handle.length && handle.getLast? = some '!' then
      if text.isEmpty then none else some (⟨String.ofList handle, String.ofList text⟩, rest)
    else
      let suffix := handle.drop 1 ++ text
      return (if suffix.isEmpty then ⟨"", "!"⟩ else ⟨"!", String.ofList suffix⟩, rest)

def text? (shorthands : List (String × String)) (t : Tag) : Option String :=
  if t.handle = "" then some t.suffix
  else (shorthands.lookup t.handle).map (· ++ t.suffix)

end Tag

/-- What handles stand for unless a directive says otherwise. -/
def standardShorthands : List (String × String) := [("!", "!"), ("!!", "tag:yaml.org,2002:")]

def readVersionNumber? (cs : List Char) : Option (Nat × List Char) :=
  let ds := cs.takeWhile Char.isDigit
  if ds.isEmpty || 9 < ds.length then none
  else (Text.radixValue? 10 ds).map (·, cs.dropWhile Char.isDigit)

def readVersion? (cs : List Char) : Option ((Nat × Nat) × List Char) := do
  let (major, rest) ← readVersionNumber? cs
  match rest with
  | '.' :: rest =>
    let (minor, rest) ← readVersionNumber? rest
    return ((major, minor), rest)
  | _ => none

/-- A handle and what it stands for, and what follows them. -/
def readShorthand? (cs : List Char) : Option ((String × String) × List Char) := do
  let (handle, rest) := Tag.readHandle cs
  let start := rest.dropWhile isSpace
  let (text, after) ← Tag.readText? true (start.length + 1) start
  if cs.head? = some '!' && (handle.length = 1 || handle.getLast? = some '!') &&
      rest.head?.any isSpace && !text.isEmpty && separates after then
    return ((String.ofList handle, String.ofList text), after)
  else none

end DeployPlan.Yaml
