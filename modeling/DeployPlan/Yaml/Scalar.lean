import DeployPlan.Text.Hex
import DeployPlan.Yaml.Cursor

/-!
# Scalar texts

A scalar is written plain, in quotes or as an indented block. Between the words of the first two,
a single line end is a space, and further ones stand for themselves; a block keeps its lines or
folds them in the same way.
-/
namespace DeployPlan.Yaml

/-- What stands between two words: spaces on a line, or the line ends that were passed. -/
structure Gap where
  spaces : List Char
  breaks : List Char
deriving Repr

namespace Gap

def none : Gap := ⟨[], []⟩

def isBroken (g : Gap) : Bool := !g.breaks.isEmpty

/-- Line ends with the first one folded: alone it is a space. -/
def fold : List Char → List Char
  | [] => []
  | b :: bs => if b = '\n' then (if bs.isEmpty then [' '] else bs) else b :: bs

/-- The text that a gap stands for. After an escaped line end further ones are kept. -/
def text (g : Gap) (escaped : Bool) : List Char :=
  if escaped then g.breaks else if g.isBroken then fold g.breaks else g.spaces

/-- Reads spaces and line ends. On a later line a tab left of column `indent` is refused. Spaces
are dropped once a line has ended, or from the start when `escaped`. -/
def read? (indent : Nat) (escaped : Bool) : Nat → Gap → Cursor → Option (Gap × Cursor)
  | 0, _, _ => Option.none
  | n + 1, g, p =>
    match p.rest with
    | [] => some (g, p)
    | c :: _ =>
      let later := escaped || g.isBroken
      if isBreak c then read? indent escaped n ⟨[], g.breaks ++ [c]⟩ p.advance
      else if isSpace c then
        if later && c = '\t' && p.column < indent then Option.none
        else read? indent escaped n ⟨if later then [] else g.spaces ++ [c], g.breaks⟩ p.advance
      else some (g, p)

end Gap

/-! ## Plain texts -/

/-- Characters with a meaning inside brackets. -/
def isFlowMark (c : Char) : Bool :=
  c = ',' || c = '[' || c = ']' || c = '\x7b' || c = '\x7d'

/-- The characters of a plain word, up to a separator or to what ends a plain text. A colon before
a bracket character is refused inside brackets. -/
def plainWord? (inFlow : Bool) : List Char → Option (List Char)
  | [] => some []
  | c :: cs =>
    if isSpace c || isBreak c then some []
    else if inFlow && c = ':' && (cs.head?.any fun d => isFlowMark d || d = '?') then none
    else if (c = ':' && separates cs) || (inFlow && isFlowMark c) then some []
    else (plainWord? inFlow cs).map (c :: ·)

/-- A plain text, `done` being what is read of it and `gap` what follows that. The text ends at a
comment, at a document mark, at a mark of its surroundings, or, outside brackets, left of column
`indent`. Told with it is whether a line ended after its last word. -/
def readPlain? (inFlow : Bool) (indent : Nat) :
    Nat → List Char → Gap → Cursor → Option (List Char × Bool × Cursor)
  | 0, _, _, _ => none
  | n + 1, done, gap, p =>
    if p.atDocumentMark || p.rest.head? = some '#' then some (done, gap.isBroken, p)
    else
      match plainWord? inFlow p.rest with
      | none => none
      | some word =>
        let after := p.skip word.length
        let done := if word.isEmpty then done else done ++ gap.text false ++ word
        let gap := if word.isEmpty then gap else Gap.none
        if after.rest.isEmpty || !separates after.rest then some (done, gap.isBroken, after)
        else
          match Gap.read? indent false (after.rest.length + 1) Gap.none after with
          | none => none
          | some (gap, next) =>
            if !inFlow && next.column < indent then some (done, gap.isBroken, next)
            else readPlain? inFlow indent n done gap next

/-! ## Quoted texts -/

def plainEscape? : Char → Option Char
  | '0' => some '\x00'
  | 'a' => some '\x07'
  | 'b' => some '\x08'
  | 't' => some '\t'
  | '\t' => some '\t'
  | 'n' => some '\n'
  | 'v' => some '\x0b'
  | 'f' => some '\x0c'
  | 'r' => some '\r'
  | 'e' => some '\x1b'
  | ' ' => some ' '
  | '"' => some '"'
  | '/' => some '/'
  | '\\' => some '\\'
  | 'N' => some '\u0085'
  | '_' => some '\u00a0'
  | 'L' => some '\u2028'
  | 'P' => some '\u2029'
  | _ => none

/-- How many digits follow the letter of a numeric escape. -/
def escapeWidth? : Char → Option Nat
  | 'x' => some 2
  | 'u' => some 4
  | 'U' => some 8
  | _ => none

/-- The character of an escape whose backslash is read, and how many characters it took. -/
def escape? : List Char → Option (Char × Nat)
  | [] => none
  | e :: cs =>
    match escapeWidth? e with
    | none => (plainEscape? e).map (·, 1)
    | some width => do
      let (n, _) ← Text.hexNumber? width cs
      let c ← Text.charOf? n
      return (c, width + 1)

inductive RunEnd where
  /-- At a space, a line end or the closing quote. -/
  | plain
  /-- After an escaped line end. -/
  | escapedBreak
deriving DecidableEq, Repr

/-- The characters up to a separator, the closing quote or an escaped line end. -/
def quotedRun? (double : Bool) : Nat → List Char → Cursor → Option (List Char × RunEnd × Cursor)
  | 0, _, _ => none
  | n + 1, done, p =>
    match p.rest with
    | [] => some (done, .plain, p)
    | c :: cs =>
      if isSpace c || isBreak c then some (done, .plain, p)
      else if double then
        if c = '"' then some (done, .plain, p)
        else if c = '\\' then
          if cs.head?.any isBreak then some (done, .escapedBreak, p.skip 2)
          else
            match escape? cs with
            | none => none
            | some (e, size) => quotedRun? double n (done ++ [e]) (p.skip (size + 1))
        else quotedRun? double n (done ++ [c]) p.advance
      else if c = '\'' then
        if cs.head? = some '\'' then quotedRun? double n (done ++ ['\'']) (p.skip 2)
        else some (done, .plain, p)
      else quotedRun? double n (done ++ [c]) p.advance

/-- A quoted text whose opening quote is read, `done` being what is read of it. -/
def readQuoted? (double : Bool) : Nat → List Char → Cursor → Option (List Char × Cursor)
  | 0, _, _ => none
  | n + 1, done, p =>
    if p.atDocumentMark then none
    else
      match quotedRun? double (p.rest.length + 1) [] p with
      | none => none
      | some (run, stop, after) =>
        let escaped := stop = .escapedBreak
        if !escaped && after.rest.head? = some (if double then '"' else '\'') then
          some (done ++ run, after.advance)
        else if after.rest.isEmpty then none
        else
          match Gap.read? 0 escaped (after.rest.length + 1) Gap.none after with
          | none => none
          | some (gap, next) => readQuoted? double n (done ++ run ++ gap.text escaped) next

/-! ## Block texts -/

/-- What happens to the line ends after a block text. -/
inductive Chomping where
  | strip
  | clip
  | keep
deriving DecidableEq, Repr

/-- What a block text's first line says: how it ends, and how far it is indented. -/
structure BlockHeader where
  chomping : Chomping
  /-- The indentation over that of its surroundings, if it is given. -/
  indent : Option Nat
deriving Repr

def chomping? : Char → Option Chomping
  | '+' => some .keep
  | '-' => some .strip
  | _ => none

/-- The indentation that a digit asks for; zero is refused. -/
def blockIndent? (c : Char) : Option Nat :=
  if '1' ≤ c && c ≤ '9' then some (c.toNat - '0'.toNat) else none

def blockHeader? : List Char → Option (BlockHeader × Nat)
  | c :: cs =>
    match chomping? c with
    | some chomping =>
      match cs with
      | d :: _ =>
        if d.isDigit then (blockIndent? d).map fun i => (⟨chomping, some i⟩, 2)
        else some (⟨chomping, none⟩, 1)
      | [] => some (⟨chomping, none⟩, 1)
    | none =>
      if c.isDigit then
        match blockIndent? c, cs.head?.bind chomping? with
        | none, _ => none
        | some i, some chomping => some (⟨chomping, some i⟩, 2)
        | some i, none => some (⟨.clip, some i⟩, 1)
      else some (⟨.clip, none⟩, 0)
  | [] => some (⟨.clip, none⟩, 0)

/-- The place after the first line of a block text; only a comment may follow the signs. -/
def afterHeader? (p : Cursor) : Option Cursor :=
  let p := p.skip (p.rest.takeWhile isSpace).length
  let p := if p.rest.head? = some '#' then p.restOfLine.2 else p
  match p.rest with
  | [] => some p
  | c :: _ => if isBreak c then some p.advance else none

/-- The line ends before a line of text, with the widest indentation met. `indent` is zero while
the indentation of the text is not known; a tab that indents is refused. -/
def blockBreaks? (indent : Nat) : Nat → Nat → List Char → Cursor → Option (Nat × List Char × Cursor)
  | 0, _, _, _ => none
  | n + 1, widest, breaks, p =>
    let inside := indent = 0 || p.column < indent
    match p.rest with
    | [] => some (max widest p.column, breaks, p)
    | c :: _ =>
      if c = ' ' && inside then blockBreaks? indent n widest breaks p.advance
      else if c = '\t' && inside then none
      else if isBreak c then blockBreaks? indent n (max widest p.column) (breaks ++ [c]) p.advance
      else some (max widest p.column, breaks, p)

structure BlockText where
  done : List Char
  /-- The line end after the last line. -/
  lineEnd : List Char
  /-- The line ends after that. -/
  blanks : List Char
deriving Repr

/-- What joins a line to those before it. Folding makes one line end a space, unless one of the two
lines starts with white space. -/
def BlockText.joint (t : BlockText) (folded : Bool) : List Char :=
  if folded && t.lineEnd = ['\n'] then (if t.blanks.isEmpty then [' '] else t.blanks)
  else t.lineEnd ++ t.blanks

/-- The lines of a block text at column `indent`. `spaced` tells that the line before started with
white space. -/
def readLines? (folded : Bool) (indent : Nat) :
    Nat → Bool → BlockText → Cursor → Option (BlockText × Cursor)
  | 0, _, _, _ => none
  | n + 1, spaced, t, p =>
    match p.rest with
    | [] => some (t, p)
    | c :: _ =>
      if p.column = indent then
        let (line, after) := p.restOfLine
        let done := t.done ++ t.joint (folded && !spaced && !isSpace c) ++ line
        let lineEnd := after.rest.take 1
        match blockBreaks? indent (after.rest.length + 1) 0 [] after.advance with
        | none => none
        | some (_, blanks, next) =>
          readLines? folded indent n (isSpace c) ⟨done, lineEnd, blanks⟩ next
      else some (t, p)

/-- A block text with its last line ends treated as its first line asks. -/
def BlockText.chomp (t : BlockText) : Chomping → List Char
  | .strip => t.done
  | .clip => t.done ++ t.lineEnd
  | .keep => t.done ++ t.lineEnd ++ t.blanks

/-- A block text whose first sign is read, inside surroundings indented by `outer`. -/
def readBlock? (folded : Bool) (outer : Int) (p : Cursor) : Option (List Char × Cursor) := do
  let (header, size) ← blockHeader? p.rest
  let p ← afterHeader? (p.skip size)
  let given := match header.indent with
    | some i => (max outer 0).toNat + i
    | none => 0
  let fuel := p.rest.length + 1
  let (widest, blanks, p) ← blockBreaks? given fuel 0 [] p
  let indent := if given = 0 then max widest (max (outer + 1).toNat 1) else given
  let (t, p) ← readLines? folded indent fuel false ⟨[], [], blanks⟩ p
  return (t.chomp header.chomping, p)

end DeployPlan.Yaml
