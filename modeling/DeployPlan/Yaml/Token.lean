import DeployPlan.Yaml.Scalar
import DeployPlan.Yaml.Tag

/-!
# Tokens

A document is read as tokens. Indentation opens and closes block collections; a scalar or bracket on
one line becomes a key when a colon follows it, so that key tokens are put in before what was read.
-/
namespace DeployPlan.Yaml

inductive Token where
  | documentStart
  | documentEnd
  | blockSequence
  | blockMapping
  | blockEnd
  | flowSequence
  | flowSequenceEnd
  | flowMapping
  | flowMappingEnd
  | blockItem
  | flowItem
  | key
  | value
  | alias (name : String)
  | anchor (name : String)
  | tag (written : Tag)
  | version (major minor : Nat)
  | shorthand (handle start : String)
  | scalar (isPlain : Bool) (text : String)
deriving DecidableEq, Repr

/-- Where a key may have begun. -/
structure KeyStart where
  /-- Nothing but a key can stand at this place. -/
  required : Bool
  /-- How many tokens come before. -/
  position : Nat
  line : Nat
  column : Nat
  index : Nat
deriving Repr

/-- How many bytes a key on one line may have. -/
def keyLimit : Nat := 1024

def KeyStart.isOpen (k : KeyStart) (p : Cursor) : Bool :=
  p.line ≤ k.line && p.index ≤ k.index + keyLimit

structure Scan where
  place : Cursor
  /-- The column of the innermost block collection, `-1` when there is none. -/
  indent : Int
  /-- The columns of the collections around it, the innermost first. -/
  outer : List Int
  /-- Whether a key may begin here. -/
  keyAllowed : Bool
  /-- Where a key may have begun on each level of brackets, the innermost first. -/
  keys : List (Option KeyStart)
  /-- The tokens read, the latest first. -/
  tokens : List Token
  count : Nat

namespace Scan

def start (cs : List Char) : Scan := ⟨.start cs, -1, [], true, [none], [], 0⟩

def inFlow (s : Scan) : Bool := 1 < s.keys.length

def emit (t : Token) (s : Scan) : Scan := { s with tokens := t :: s.tokens, count := s.count + 1 }

def insertAt (position : Nat) (t : Token) (s : Scan) : Scan :=
  let later := s.count - position
  { s with tokens := s.tokens.take later ++ t :: s.tokens.drop later, count := s.count + 1 }

def skip (n : Nat) (s : Scan) : Scan := { s with place := s.place.skip n }

/-- Tells whether a key may begin at the place reached. -/
def allowKey (allowed : Bool) (s : Scan) : Scan := { s with keyAllowed := allowed }

/-- Goes past white space and comments; a new line outside brackets lets a key begin. A tab where a
key may begin outside brackets is not white space. A byte order mark that starts a line is passed
over, and leaves what follows it in the second column. -/
def toNextToken : Nat → Scan → Scan
  | 0, s => s
  | n + 1, s =>
    match s.place.rest with
    | [] => s
    | c :: _ =>
      if c = '\uFEFF' && s.place.column = 0 then toNextToken n (s.skip 1)
      else if c = ' ' || (c = '\t' && (s.inFlow || !s.keyAllowed)) then toNextToken n (s.skip 1)
      else if c = '#' then toNextToken n { s with place := s.place.restOfLine.2 }
      else if isBreak c then toNextToken n ((s.skip 1).allowKey (s.keyAllowed || !s.inFlow))
      else s

/-- Forgets key starts that cannot become keys any more; a required one is refused. -/
def dropStaleKeys (s : Scan) : Option Scan := do
  let keys ← s.keys.mapM fun k =>
    match k with
    | none => some none
    | some k => if k.isOpen s.place then some (some k) else if k.required then none else some none
  return { s with keys := keys }

/-- Forgets the key start of the innermost level; a required one is refused. -/
def dropKey (s : Scan) : Option Scan :=
  match s.keys with
  | some k :: keys => if k.required then none else some { s with keys := none :: keys }
  | _ => some s

def saveKey (s : Scan) : Option Scan :=
  if s.keyAllowed then do
    let s ← s.dropKey
    let required := !s.inFlow && s.indent = s.place.column
    let k : KeyStart := ⟨required, s.count, s.place.line, s.place.column, s.place.index⟩
    return { s with keys := some k :: s.keys.tail }
  else some s

/-- Closes the block collections that are indented beyond a column. -/
def unroll (column : Int) (s : Scan) : Scan :=
  if s.inFlow then s else close s.outer s
where
  /-- Closes collections while there are any around, `around` being their columns. -/
  close : List Int → Scan → Scan
    | [], s => s
    | c :: around, s =>
      if column < s.indent then
        close around ({ s with indent := c, outer := around }.emit .blockEnd)
      else s

/-- Opens a block collection at a column that is beyond the innermost one, its token put after the
first `position` ones. -/
def roll (column : Int) (position : Nat) (t : Token) (s : Scan) : Scan :=
  if s.inFlow || column ≤ s.indent then s
  else { s with indent := column, outer := s.indent :: s.outer }.insertAt position t

/-- Opens a block collection here. -/
def rollHere (t : Token) (s : Scan) : Scan := s.roll s.place.column s.count t

def readMark (t : Token) (s : Scan) : Option Scan := do
  let s ← (s.unroll (-1)).dropKey
  return ((s.allowKey false).skip 3).emit t

def readOpening (t : Token) (s : Scan) : Option Scan := do
  let s ← s.saveKey
  return ((({ s with keys := none :: s.keys }).allowKey true).skip 1).emit t

def readClosing (t : Token) (s : Scan) : Option Scan := do
  let s ← s.dropKey
  let keys := match s.keys with
    | _ :: k :: keys => k :: keys
    | keys => keys
  return (({ s with keys := keys }.allowKey false).skip 1).emit t

def readComma (s : Scan) : Option Scan := do
  let s ← s.dropKey
  return ((s.allowKey true).skip 1).emit .flowItem

def readDash (s : Scan) : Option Scan := do
  if !s.inFlow && !s.keyAllowed then none
  else
    let s ← (s.rollHere .blockSequence).dropKey
    return ((s.allowKey true).skip 1).emit .blockItem

def readKeyMark (s : Scan) : Option Scan := do
  if !s.inFlow && !s.keyAllowed then none
  else
    let s ← (s.rollHere .blockMapping).dropKey
    return ((s.allowKey !s.inFlow).skip 1).emit .key

/-- Reads the colon before a value. What a key may have begun with becomes the key. -/
def readColon (s : Scan) : Option Scan :=
  match s.keys with
  | some k :: keys =>
    let s := ({ s with keys := none :: keys }.insertAt k.position .key).roll k.column k.position
      .blockMapping
    some (((s.allowKey false).skip 1).emit .value)
  | _ =>
    if !s.inFlow && !s.keyAllowed then none
    else some ((((s.rollHere .blockMapping).allowKey !s.inFlow).skip 1).emit .value)

def endsName (cs : List Char) : Bool :=
  separates cs || cs.head?.any fun c => "?:,]\x7d%@\x60".toList.contains c

def readName (make : String → Token) (s : Scan) : Option Scan := do
  let s ← s.saveKey
  let name := (s.place.rest.drop 1).takeWhile isNameChar
  let s := (s.allowKey false).skip (name.length + 1)
  if name.isEmpty || !endsName s.place.rest then none
  else some (s.emit (make (String.ofList name)))

def readTag (s : Scan) : Option Scan := do
  let s ← s.saveKey
  let (tag, rest) ← Tag.read? s.place.rest
  let s := (s.allowKey false).skip (s.place.rest.length - rest.length)
  if separates rest || (s.inFlow && rest.head? = some ',') then some (s.emit (.tag tag)) else none

/-- Ends a directive: nothing but a comment may follow it on its line. -/
def endDirective (s : Scan) : Option Scan :=
  (afterHeader? s.place).map fun p => { s with place := p }

def readDirective (s : Scan) : Option Scan := do
  let s ← (s.unroll (-1)).dropKey
  let (token, rest) ← directive? (s.place.rest.drop 1)
  let s := (s.allowKey false).skip (s.place.rest.length - rest.length)
  (s.emit token).endDirective
where
  /-- The token of a directive whose first sign is read, and what follows it. -/
  directive? (cs : List Char) : Option (Token × List Char) := do
    let name := cs.takeWhile isNameChar
    let rest := cs.dropWhile isNameChar
    if !separates rest then none
    else if name = "YAML".toList then
      let ((major, minor), rest) ← readVersion? (rest.dropWhile isSpace)
      return (.version major minor, rest)
    else if name = "TAG".toList then
      let ((handle, start), rest) ← readShorthand? (rest.dropWhile isSpace)
      return (.shorthand handle start, rest)
    else none

def readQuotedText (double : Bool) (s : Scan) : Option Scan := do
  let s ← s.saveKey
  let p := s.place.advance
  let (text, p) ← readQuoted? double (p.rest.length + 1) [] p
  return ({ s with place := p }.allowKey false).emit (.scalar false (String.ofList text))

def readBlockText (folded : Bool) (s : Scan) : Option Scan := do
  let s ← s.dropKey
  let (text, p) ← readBlock? folded s.indent s.place.advance
  return ({ s with place := p }.allowKey true).emit (.scalar false (String.ofList text))

/-- Reads a plain text; a key may begin after it once a line has ended. -/
def readPlainText (s : Scan) : Option Scan := do
  let s ← s.saveKey
  let fuel := s.place.rest.length + 1
  let (text, broken, p) ← readPlain? s.inFlow (s.indent + 1).toNat fuel [] .none s.place
  return ({ s with place := p }.allowKey broken).emit (.scalar true (String.ofList text))

/-- Characters that start no plain text. -/
def isIndicator (c : Char) : Bool := "-?:,[]\x7b\x7d#&*!|>'\"%@\x60".toList.contains c

def startsPlain (inFlow : Bool) (c : Char) (cs : List Char) : Bool :=
  !isIndicator c && !isSpace c || (c = '-' && !cs.head?.any isSpace)
    || (!inFlow && (c = '?' || c = ':') && !separates cs)

/-- Reads the token that starts with a character, `cs` being what follows it. -/
def readToken (c : Char) (cs : List Char) (s : Scan) : Option Scan :=
  if s.place.atMark "---" then s.readMark .documentStart
  else if s.place.atMark "..." then s.readMark .documentEnd
  else if c = '%' && s.place.column = 0 then s.readDirective
  else if c = '[' then s.readOpening .flowSequence
  else if c = '\x7b' then s.readOpening .flowMapping
  else if c = ']' then s.readClosing .flowSequenceEnd
  else if c = '\x7d' then s.readClosing .flowMappingEnd
  else if c = ',' then s.readComma
  else if c = '-' && separates cs then s.readDash
  else if c = '?' && (s.inFlow || separates cs) then s.readKeyMark
  else if c = ':' && (s.inFlow || separates cs) then s.readColon
  else if c = '*' then s.readName .alias
  else if c = '&' then s.readName .anchor
  else if c = '!' then s.readTag
  else if c = '|' && !s.inFlow then s.readBlockText false
  else if c = '>' && !s.inFlow then s.readBlockText true
  else if c = '\'' then s.readQuotedText false
  else if c = '"' then s.readQuotedText true
  else if startsPlain s.inFlow c cs then s.readPlainText
  else none

def finish (s : Scan) : Option (List Token) := do
  let s ← (s.unroll (-1)).dropKey
  return s.tokens.reverse

def run : Nat → Scan → Option (List Token)
  | 0, _ => none
  | n + 1, s => do
    let s ← (s.toNextToken (s.place.rest.length + 1)).dropStaleKeys
    let s := s.unroll s.place.column
    match s.place.rest with
    | [] => s.finish
    | c :: cs =>
      let s ← s.readToken c cs
      run n s

end Scan

/-- The tokens of a text. A character that no document may hold is refused. -/
def tokens? (text : String) : Option (List Token) :=
  if text.toList.all isPrintable then
    let cs := unifyBreaks text.toList
    (Scan.start cs).run (cs.length + 1)
  else none

end DeployPlan.Yaml
