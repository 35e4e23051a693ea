import DeployPlan.Reference.Host

/-!
# Paths of file URLs

The path of a file URL is put together character by character. A segment for the directory above
takes the one before it away, unless that is a drive: a letter with a colon or a bar. A first
segment that is a drive is written with a colon and makes the host meaningless; what follows it
directly starts another segment.
-/
namespace DeployPlan.Reference

def isDrive : List Char → Bool
  | [c, d] => c.isAlpha && (d = ':' || d = '|')
  | _ => false

def isColonDrive (cs : List Char) : Bool := isDrive cs && cs.getLast? = some ':'

def isDot (segment : List Char) : Bool :=
  [".", "%2e"].contains (String.ofList (segment.map Char.toLower))

def isDoubleDot (segment : List Char) : Bool :=
  ["..", ".%2e", "%2e.", "%2e%2e"].contains (String.ofList (segment.map Char.toLower))

/-- A path of a file URL that is being put together. -/
structure FilePath where
  /-- What is read of the path, in reverse. -/
  done : List Char
  /-- Where the segment that is being read starts. -/
  start : Nat
  /-- Whether a drive has made the host meaningless. -/
  hostless : Bool
deriving Repr

namespace FilePath

/-- A path of which the first slash is read, or nothing. -/
def empty (slashed : Bool) : FilePath := if slashed then ⟨['/'], 1, false⟩ else ⟨[], 0, false⟩

/-- Adds a character to the segment. After a drive that is all of the path a slash comes first, and
counts as a part of the segment from the colon on. -/
def push (p : FilePath) (c : Char) : FilePath :=
  if p.done.getLast? = some '/' && isColonDrive (p.done.dropLast.reverse) then
    { p with done := c :: '/' :: p.done, start := p.start + 1 }
  else { p with done := c :: p.done }

/-- The characters of the segment, in reverse. -/
def segment (p : FilePath) : List Char := p.done.take (p.done.length - p.start)

/-- What is read before the segment, in reverse. -/
def before (p : FilePath) : List Char := p.done.drop (p.done.length - p.start)

/-- A path in reverse with a slash at its end. -/
def close : List Char → List Char
  | '/' :: cs => '/' :: cs
  | cs => '/' :: cs

/-- A path in reverse without its last segment, unless that is a drive. -/
def dropSegment (cs : List Char) : List Char :=
  if isColonDrive (cs.takeWhile (· ≠ '/')).reverse then cs else cs.dropWhile (· ≠ '/')

/-- The path above one that is given in reverse with a slash at its end. -/
def above : List Char → List Char
  | '/' :: cs =>
    if cs.contains '/' && !isDrive (cs.takeWhile (· ≠ '/')).reverse then dropSegment cs
    else dropSegment ('/' :: cs)
  | cs => dropSegment cs

def endSegment (p : FilePath) (slashed : Bool) : FilePath :=
  let segment := p.segment.reverse
  let withSlash := fun cs => if slashed then '/' :: cs else cs
  let done :=
    if isDoubleDot segment then (if slashed then close (above p.before) else above p.before)
    else if isDot segment then close p.before
    else if p.start = 1 && isDrive segment then withSlash (':' :: segment.take 1 ++ p.before)
    else withSlash p.done
  ⟨done, done.length, p.hostless || (p.start = 1 && isDrive segment)⟩

/-- Reads characters up to a query, a fragment or the end. Backslashes are slashes. -/
def read (p : FilePath) : List Char → FilePath
  | [] => p.endSegment false
  | c :: cs =>
    if c = '/' || c = '\\' then (p.endSegment true).read cs
    else if c = '?' || c = '#' then p.endSegment false
    else (p.push c).read cs

/-- How many bytes that follow a byte are part of the same character, the next one being within
some bounds; `none` starts no character. -/
def shape? (b : UInt8) : Option (Nat × UInt8 × UInt8) :=
  if b < 0x80 then some (0, 0, 0)
  else if b < 0xC2 then none
  else if b < 0xE0 then some (1, 0x80, 0xBF)
  else if b < 0xF0 then
    some (2, if b = 0xE0 then 0xA0 else 0x80, if b = 0xED then 0x9F else 0xBF)
  else if b < 0xF5 then
    some (3, if b = 0xF0 then 0x90 else 0x80, if b = 0xF4 then 0x8F else 0xBF)
  else none

/-- How many bytes after a first one fit its character. -/
def fitting (shape : Nat × UInt8 × UInt8) : List UInt8 → Nat
  | [] => 0
  | b :: bs =>
    if shape.1 = 0 || b < shape.2.1 || shape.2.2 < b then 0
    else 1 + ((bs.take (shape.1 - 1)).takeWhile fun b => 0x80 ≤ b && b ≤ 0xBF).length

/-- The text that bytes encode. Bytes that start a character and do not end it are replaced
together, and each other byte alone. -/
def lossyText : Nat → List UInt8 → String
  | 0, _ => ""
  | _ + 1, [] => ""
  | n + 1, b :: bs =>
    match shape? b with
    | none => "\ufffd" ++ lossyText n bs
    | some shape =>
      let width := fitting shape bs
      let piece := if width = shape.1 then Host.decode? (b :: bs.take width) else none
      piece.getD "\ufffd" ++ lossyText n (bs.drop width)

/-- The path as it is looked up: slashes at its start are one, escapes stand for bytes, and a drive
at its end is followed by a slash. -/
def text (p : FilePath) : String :=
  let bytes := Host.percentBytes ('/' :: p.done.reverse.dropWhile (· = '/'))
  let drive := (bytes.drop (bytes.length - 2)).map fun b => Char.ofNat b.toNat
  let slash := if 2 < bytes.length && isDrive drive then [0x2F] else []
  lossyText (bytes.length + 1) (bytes ++ slash)

end FilePath

end DeployPlan.Reference
