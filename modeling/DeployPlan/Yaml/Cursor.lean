/-!
# Places in a text

A cursor knows the characters that follow and the line and column it stands at. Line feeds, line
separators and paragraph separators end lines; the other spellings of a line end are made line feeds
before reading.
-/
namespace DeployPlan.Yaml

def isBreak (c : Char) : Bool := c = '\n' || c = '\u2028' || c = '\u2029'

def isSpace (c : Char) : Bool := c = ' ' || c = '\t'

def isPrintable (c : Char) : Bool :=
  let n := c.toNat
  n = 0x9 || n = 0xA || n = 0xD || (0x20 ≤ n && n ≤ 0x7E) || n = 0x85 || (0xA0 ≤ n && n ≤ 0xD7FF)
    || (0xE000 ≤ n && n ≤ 0xFFFD) || 0x10000 ≤ n

/-- The characters with every line end that stands for a line feed made one. -/
def unifyBreaks : List Char → List Char
  | [] => []
  | '\r' :: '\n' :: cs => '\n' :: unifyBreaks cs
  | c :: cs => (if c = '\r' || c = '\u0085' then '\n' else c) :: unifyBreaks cs

structure Cursor where
  rest : List Char
  line : Nat
  column : Nat
  /-- How many bytes come before. -/
  index : Nat
deriving Repr

/-- Whether a text is at its end, a space, a tab or a line end. -/
def separates : List Char → Bool
  | [] => true
  | c :: _ => isSpace c || isBreak c

namespace Cursor

def start (cs : List Char) : Cursor := ⟨cs, 0, 0, 0⟩

def advance (p : Cursor) : Cursor :=
  match p.rest with
  | [] => p
  | c :: cs =>
    let index := p.index + c.utf8Size
    if isBreak c then ⟨cs, p.line + 1, 0, index⟩ else ⟨cs, p.line, p.column + 1, index⟩

def skip : Nat → Cursor → Cursor
  | 0, p => p
  | n + 1, p => skip n p.advance

/-- Whether a document begins or ends here, as the three characters at the start of a line say. -/
def atMark (mark : String) (p : Cursor) : Bool :=
  p.column = 0 && mark.toList.isPrefixOf p.rest && separates (p.rest.drop 3)

def atDocumentMark (p : Cursor) : Bool := p.atMark "---" || p.atMark "..."

/-- The characters up to the end of the line, and the place there. -/
def restOfLine (p : Cursor) : List Char × Cursor :=
  let cs := p.rest.takeWhile fun c => !isBreak c
  (cs, p.skip cs.length)

end Cursor

end DeployPlan.Yaml
