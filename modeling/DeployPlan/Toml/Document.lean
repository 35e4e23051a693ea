import DeployPlan.Json.Reader
import DeployPlan.Toml.Date
import DeployPlan.Toml.Table

/-!
# Tables from text

A document is lines: keys with values, and headers that say to which table the lines after them
belong. What is nested too deeply is refused: keys of many parts, and lists and tables in braces
inside each other.
-/
namespace DeployPlan.Toml

/-- Why a text is no document. A refusal for depth tells the place by the number of characters from
there to the end. -/
inductive Refusal where
  /-- The format does not allow what stands there. -/
  | malformed
  /-- A list, a table in braces or the key of a line is too deep. -/
  | tooDeep (left : Nat)
  /-- The key of a header is too deep. -/
  | tooDeepHeader (left : Nat)
  /-- A key in braces is too deep; the place is the end of the entry before. -/
  | tooDeepEntry (left : Nat)
deriving DecidableEq, Repr

/-- What reading yields, or why there is nothing. -/
abbrev Reading (α : Type) := Except Refusal α

/-- A result that is there, or the refusal of what the format does not allow. -/
def orMalformed {α : Type} : Option α → Reading α
  | some a => .ok a
  | none => .error .malformed

/-- The depth from which on nothing may be nested, and the number of parts that no key may have. -/
def depthLimit : Nat := 80

/-- The characters with every pair of a carriage return and a line feed made a line feed. -/
def unifyBreaks : List Char → List Char
  | [] => []
  | '\r' :: '\n' :: cs => '\n' :: unifyBreaks cs
  | c :: cs => c :: unifyBreaks cs

/-- Whether a character may stand in a comment or a text of one line. -/
def isPlainChar (c : Char) : Bool := c = '\t' || (0x20 ≤ c.toNat && c.toNat ≠ 0x7F)

def isSpace (c : Char) : Bool := c = ' ' || c = '\t'

def skipSpace (cs : List Char) : List Char := cs.dropWhile isSpace

/-- The characters after a comment, if one starts here. A control character in it is refused. -/
def skipComment? : List Char → Option (List Char)
  | '#' :: cs =>
    let rest := cs.dropWhile isPlainChar
    if rest.isEmpty || rest.head? = some '\n' then some rest else none
  | cs => some cs

/-- The characters after the end of a line, with nothing but a comment before it. -/
def endLine? (cs : List Char) : Option (List Char) := do
  match ← skipComment? (skipSpace cs) with
  | [] => some []
  | '\n' :: rest => some rest
  | _ => none

def skipLines? : Nat → List Char → Option (List Char)
  | 0, _ => none
  | n + 1, cs => do
    match ← skipComment? (skipSpace cs) with
    | '\n' :: rest => skipLines? n rest
    | rest => some rest

/-! ## Texts -/

def plainEscape? : Char → Option Char
  | 'b' => some '\x08'
  | 't' => some '\t'
  | 'n' => some '\n'
  | 'f' => some '\x0c'
  | 'r' => some '\r'
  | '"' => some '"'
  | '\\' => some '\\'
  | _ => none

/-- The character of an escape whose backslash is read, and what follows. -/
def escape? : List Char → Option (Char × List Char)
  | [] => none
  | e :: cs =>
    if e = 'u' || e = 'U' then do
      let (n, rest) ← Text.hexNumber? (if e = 'u' then 4 else 8) cs
      let c ← Text.charOf? n
      return (c, rest)
    else (plainEscape? e).map (·, cs)

/-- A text of one line up to its closing quote, `done` being what is read of it in reverse.
Backslashes escape between double quotes only. -/
def readLine? (quote : Char) : Nat → List Char → List Char → Option (String × List Char)
  | 0, _, _ => none
  | _ + 1, _, [] => none
  | n + 1, done, c :: cs =>
    if c = quote then some (String.ofList done.reverse, cs)
    else if c = '\\' && quote = '"' then
      match escape? cs with
      | some (e, rest) => readLine? quote n (e :: done) rest
      | none => none
    else if isPlainChar c then readLine? quote n (c :: done) cs
    else none

/-- What follows an escaped line end: all white space is dropped. -/
def afterEscapedBreak? (cs : List Char) : Option (List Char) :=
  match skipSpace cs with
  | '\n' :: rest => some (rest.dropWhile fun c => isSpace c || c = '\n')
  | _ => none

/-- A text of several lines up to its three closing quotes, before which one or two may belong to
the text. -/
def readLines? (quote : Char) : Nat → List Char → List Char → Option (String × List Char)
  | 0, _, _ => none
  | _ + 1, _, [] => none
  | n + 1, done, c :: cs =>
    if c = quote then
      let run := ((c :: cs).takeWhile (· = quote)).length
      if run < 3 then readLines? quote n (List.replicate run quote ++ done) ((c :: cs).drop run)
      else
        let kept := min (run - 3) 2
        some (String.ofList (List.replicate kept quote ++ done).reverse, (c :: cs).drop (kept + 3))
    else if c = '\\' && quote = '"' then
      match afterEscapedBreak? cs, escape? cs with
      | some rest, _ => readLines? quote n done rest
      | none, some (e, rest) => readLines? quote n (e :: done) rest
      | none, none => none
    else if c = '\n' || isPlainChar c then readLines? quote n (c :: done) cs
    else none

def readText? (quote : Char) (cs : List Char) : Option (String × List Char) :=
  if cs.take 2 = [quote, quote] then
    let body := match cs.drop 2 with
      | '\n' :: rest => rest
      | rest => rest
    readLines? quote (body.length + 1) [] body
  else readLine? quote (cs.length + 1) [] cs

/-! ## Keys -/

def isKeyChar (c : Char) : Bool := c.isAlphanum || c = '_' || c = '-'

def readPart? : List Char → Option (String × List Char)
  | '"' :: cs => readLine? '"' (cs.length + 1) [] cs
  | '\'' :: cs => readLine? '\'' (cs.length + 1) [] cs
  | cs =>
    let name := cs.takeWhile isKeyChar
    if name.isEmpty then none else some (String.ofList name, cs.dropWhile isKeyChar)

def readParts? : Nat → List Char → Option (List String × List Char)
  | 0, _ => none
  | n + 1, cs => do
    let (part, rest) ← readPart? (skipSpace cs)
    match skipSpace rest with
    | '.' :: rest => do
      let (parts, rest) ← readParts? n rest
      return (part :: parts, rest)
    | rest => return ([part], rest)

/-- A key, refused as `refusal` tells from its place when it has too many parts. -/
def readKey (refusal : Nat → Refusal) (cs : List Char) : Reading (List String × List Char) := do
  let (parts, rest) ← orMalformed (readParts? (cs.length + 1) cs)
  if parts.length < depthLimit then return (parts, rest) else .error (refusal cs.length)

/-! ## Values -/

def isWordChar (c : Char) : Bool := c.isAlphanum || c = '_' || c = '+' || c = '-' || c = '.'

/-- Digits without the underscores between them; an underscore anywhere else is refused. -/
def joinDigits? (isDigit : Char → Bool) : List Char → Option (List Char)
  | [] => some []
  | [c] => if c = '_' then none else some [c]
  | c :: '_' :: d :: cs =>
    if isDigit c && isDigit d then (joinDigits? isDigit (d :: cs)).map (c :: ·) else none
  | c :: cs => if c = '_' then none else (joinDigits? isDigit cs).map (c :: ·)

def wholeNumber? (n : Int) : Option Json :=
  if Number.leastWord ≤ n && n < Number.signedEnd then some (.num (.int n)) else none

def based? (base : Nat) (cs : List Char) : Option Json := do
  let ds ← joinDigits? Text.isHexDigit cs
  if ds.isEmpty then none else wholeNumber? (← Text.radixValue? base ds)

def isPointed : List Char → Bool
  | [] => true
  | '.' :: cs => cs.head?.any Char.isDigit
  | _ :: cs => isPointed cs

def infinity (negative : Bool) : Json :=
  .num (.float (if negative then 0xFFF0000000000000 else 0x7FF0000000000000))

/-- What is no number, of a sign. -/
def notNumber (negative : Bool) : Json :=
  .num (.float (if negative then 0xFFF8000000000000 else 0x7FF8000000000000))

/-- A decimal number; a needless zero at its start is refused. One that is too large for a double
is refused above zero and infinite below. -/
def decimal? (negative : Bool) (cs : List Char) : Option Json := do
  let ds ← joinDigits? Char.isDigit cs
  let front := ds.takeWhile Char.isDigit
  if front.isEmpty || (front.head? = some '0' && 1 < front.length) || !isPointed ds then none
  else
    let (l, rest) ← Decimal.Literal.scan? ds
    if !rest.isEmpty then none
    else if l.whole then wholeNumber? (if negative then -(l.coefficient : Int) else l.coefficient)
    else
      match l.word? negative with
      | some word => some (.num (.float word))
      | none => if negative then some (infinity true) else none

def named? (negative : Bool) (cs : List Char) : Option Json :=
  if cs = ['i', 'n', 'f'] then some (infinity negative)
  else if cs = ['n', 'a', 'n'] then some (notNumber negative)
  else none

def signed? (negative : Bool) (cs : List Char) : Option Json :=
  (named? negative cs).or (decimal? negative cs)

def word? : List Char → Option Json
  | ['t', 'r', 'u', 'e'] => some (.bool true)
  | ['f', 'a', 'l', 's', 'e'] => some (.bool false)
  | '0' :: 'x' :: ds => based? 16 ds
  | '0' :: 'o' :: ds => based? 8 ds
  | '0' :: 'b' :: ds => based? 2 ds
  | '-' :: ds => signed? true ds
  | '+' :: ds => signed? false ds
  | ds => signed? false ds

/-- The value of a date, which is a table with the date as its one entry. -/
def dateValue (written : List Char) : Json := .obj [("date", .str (String.ofList written))]

/-- A date or the value of a word, and what follows it. -/
def readPlain? (cs : List Char) : Option (Json × List Char) :=
  match readDate? cs with
  | some (written, rest) => some (dateValue written, rest)
  | none => (word? (cs.takeWhile isWordChar)).map (·, cs.dropWhile isWordChar)

/-- Refuses what stands inside as many brackets and braces as may not be. -/
def checkDepth (depth : Nat) (cs : List Char) : Reading Unit :=
  if depth < depthLimit then .ok () else .error (.tooDeep cs.length)

mutual

/-- A value and what follows it, inside `depth` brackets and braces. -/
def readValue : Nat → Nat → List Char → Reading (Json × List Char)
  | 0, _, _ => .error .malformed
  | n + 1, depth, cs =>
    match cs with
    | '"' :: cs => orMalformed ((readText? '"' cs).map fun (t, rest) => (.str t, rest))
    | '\'' :: cs => orMalformed ((readText? '\'' cs).map fun (t, rest) => (.str t, rest))
    | '[' :: cs => do
      checkDepth (depth + 1) cs
      readItems n (depth + 1) [] cs
    | '\x7b' :: cs => do
      checkDepth (depth + 1) cs
      match skipSpace cs with
      | '\x7d' :: rest => return (.obj [], rest)
      | rest => readEntries n (depth + 1) rest.length Table.root rest
    | cs => orMalformed (readPlain? cs)

/-- The items of a list up to the closing bracket, commas between them and one allowed after the
last, `done` being those read in reverse. -/
def readItems : Nat → Nat → List Json → List Char → Reading (Json × List Char)
  | 0, _, _, _ => .error .malformed
  | n + 1, depth, done, cs => do
    match ← orMalformed (skipLines? (cs.length + 1) cs) with
    | ']' :: rest => return (.arr done.reverse, rest)
    | rest =>
      let (v, rest) ← readValue n depth rest
      match ← orMalformed (skipLines? (rest.length + 1) rest) with
      | ',' :: rest => readItems n depth (v :: done) rest
      | ']' :: rest => return (.arr (v :: done).reverse, rest)
      | _ => .error .malformed

/-- The entries of a table in braces up to the closing one, commas between them. From the end of
the entry before, `left` characters remain. -/
def readEntries : Nat → Nat → Nat → Table → List Char → Reading (Json × List Char)
  | 0, _, _, _, _ => .error .malformed
  | n + 1, depth, left, t, cs => do
    let (path, rest) ← readKey (fun _ => .tooDeepEntry left) cs
    let (v, rest) ← readAssigned n depth rest
    let t ← orMalformed (t.putValue path v)
    match skipSpace rest with
    | ',' :: rest => readEntries n depth (rest.length + 1) t rest
    | '\x7d' :: rest => return (tableJson t, rest)
    | _ => .error .malformed

def readAssigned : Nat → Nat → List Char → Reading (Json × List Char)
  | 0, _, _ => .error .malformed
  | n + 1, depth, cs =>
    match cs with
    | '=' :: rest => readValue n depth (skipSpace rest)
    | _ => .error .malformed

end

/-! ## Documents -/

/-- What reading lines has put together: the tables, and where the next lines belong. -/
structure Draft where
  root : Table
  place : List String

def Draft.readHeader (d : Draft) (cs : List Char) : Reading (Draft × List Char) := do
  let (isList, cs) := match cs with
    | '[' :: cs => (true, cs)
    | cs => (false, cs)
  let (path, rest) ← readKey .tooDeepHeader cs
  let root ← orMalformed (if isList then d.root.append path else d.root.define path)
  match isList, rest with
  | false, ']' :: rest => return (⟨root, path⟩, rest)
  | true, ']' :: ']' :: rest => return (⟨root, path⟩, rest)
  | _, _ => .error .malformed

/-- A draft with a key and its value in the table of the last header. -/
def Draft.readPair (d : Draft) (cs : List Char) : Reading (Draft × List Char) := do
  let (path, rest) ← readKey .tooDeep cs
  let (v, rest) ← readAssigned (2 * rest.length + 2) 0 rest
  let root ← orMalformed (d.root.descend false (·.putValue path v) d.place)
  return (⟨root, d.place⟩, rest)

def Draft.readAll : Nat → Draft → List Char → Reading Draft
  | 0, _, _ => .error .malformed
  | n + 1, d, cs => do
    match ← orMalformed (skipLines? (cs.length + 1) cs) with
    | [] => return d
    | '[' :: rest =>
      let (d, rest) ← d.readHeader rest
      readAll n d (← orMalformed (endLine? rest))
    | rest =>
      let (d, rest) ← d.readPair rest
      readAll n d (← orMalformed (endLine? rest))

/-- The characters of a document. A byte order mark may come first and is none of them. -/
def characters (text : String) : List Char :=
  unifyBreaks <| match text.toList with
    | '\uFEFF' :: cs => cs
    | cs => cs

def read (text : String) : Reading Fields := do
  let cs := characters text
  let d ← Draft.readAll (cs.length + 1) ⟨.root, []⟩ cs
  return itemsJson d.root.items

end DeployPlan.Toml
