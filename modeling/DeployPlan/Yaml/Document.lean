import DeployPlan.Yaml.Core
import DeployPlan.Yaml.Token

/-!
# Documents

A text holds one document, whose value is composed from its tokens. Keys are taken as texts. An
alias stands for the node of its anchor; composing is refused when aliases would make the value
unreasonably large, or deep, or would put a node inside itself.
-/
namespace DeployPlan.Yaml

structure Node where
  /-- The value; a plain number that is too large has none, and is good as a key only. -/
  value : Option Json
  /-- The text of a scalar. -/
  text : Option String
  /-- How many aliases are followed to write the value out. -/
  jumps : Nat
  /-- How many collections are nested in it. -/
  depth : Nat

/-- What composing knows: the tokens left, and the nodes that have anchors. An anchor's number is
how many names were seen before it, and a number belongs to the node that took it last. -/
structure Composition where
  tokens : List Token
  names : List (String × Nat)
  /-- The node that holds a number, nodes with anchors being counted from their starts. -/
  holders : List (Nat × Nat)
  started : Nat
  finished : List (Nat × Node)
  /-- How many starts and ends of nodes the document has. -/
  events : Nat
  /-- What the handles of tags stand for. -/
  shorthands : List (String × String)

abbrev Compose := StateT Composition Option

namespace Compose

def peek : Compose (Option Token) := return (← get).tokens.head?

def next : Compose Unit := modify fun c => { c with tokens := c.tokens.tail }

def count (n : Nat) : Compose Unit := modify fun c => { c with events := c.events + n }

def refuse {α : Type} : Compose α := fun _ => none

/-- Gives a number to an anchor whose node starts here. -/
def openAnchor (name : String) : Compose Nat := do
  let c ← get
  let number := c.names.length
  let names := if c.names.any (·.1 = name)
    then c.names.map fun e => if e.1 = name then (name, number) else e
    else c.names ++ [(name, number)]
  set { c with
    names := names
    holders := (number, c.started) :: c.holders
    started := c.started + 1 }
  return c.started

def closeAnchor (start : Nat) (n : Node) : Compose Unit :=
  modify fun c => { c with finished := (start, n) :: c.finished }

/-- The node that an alias stands for; a node that has not ended cannot be inside itself. -/
def followAlias (name : String) : Compose Node := do
  count 1
  let c ← get
  match (c.names.lookup name).bind fun number =>
      (c.holders.lookup number).bind fun start => c.finished.lookup start with
  | some n => return { n with jumps := n.jumps + 1 }
  | none => refuse

/-- The value of a scalar with the tag it has, if it has one. -/
def scalarValue? (tag : Option String) (isPlain : Bool) (text : String) : Option Json :=
  match tag with
  | some tag => taggedValue? tag isPlain text
  | none => if isPlain then plainValue? text else some (.str text)

def scalar (tag : Option String) (isPlain : Bool) (text : String) : Compose Node := do
  count 1
  return ⟨scalarValue? tag isPlain text, some text, 0, 0⟩

def absent : Compose Node := scalar none true ""

def retag (tag : Option String) (n : Node) : Node :=
  if tag.any isLocalTag then { n with value := none } else n

def sequence (items : List Node) : Compose Node := do
  count 2
  return ⟨(items.mapM Node.value).map .arr, none, items.foldl (fun n item => n + item.jumps) 0,
    1 + items.foldl (fun d n => max d n.depth) 0⟩

/-- The fields of some nodes, if each key is a scalar. A key that comes again replaces the value
and keeps its place. -/
def fields? (entries : List (Node × Node)) : Option Fields :=
  entries.foldlM (fun fields (k, v) => do return Entries.put (← k.text) (← v.value) fields) []

def mapping (entries : List (Node × Node)) : Compose Node := do
  count 2
  return ⟨(fields? entries).map .obj, none,
    entries.foldl (fun n e => n + e.1.jumps + e.2.jumps) 0,
    1 + entries.foldl (fun d e => max d e.2.depth) 0⟩

def expect (t : Token) : Compose Unit := do
  if (← peek) = some t then next else refuse

def isNext (ts : List Token) : Compose Bool := return (← peek).any fun t => ts.contains t

def readTag : Compose (Option String) := do
  match ← peek with
  | some (.tag written) =>
    next
    match written.text? (← get).shorthands with
    | some tag => return some tag
    | none => refuse
  | _ => return none

/-- Nothing where a node with an anchor or a tag may be; any other node has to be written. -/
def nothing (tag : Option String) (marked : Bool) : Compose Node :=
  if marked then scalar tag true "" else refuse

mutual

/-- A node. Block collections are taken only where `block` says, and a sequence that is not
indented only as the value or key of a block mapping. -/
def node : Nat → Bool → Bool → Compose Node
  | 0, _, _ => refuse
  | n + 1, block, loose => do
    match ← peek with
    | some (.alias name) => do
      next
      followAlias name
    | some (.anchor name) => do
      next
      let tag ← readTag
      anchoredContent n block loose name tag
    | some (.tag _) => do
      let tag ← readTag
      match ← peek with
      | some (.anchor name) => do
        next
        anchoredContent n block loose name tag
      | _ => content n block loose tag true
    | _ => content n block loose none false

def anchoredContent : Nat → Bool → Bool → String → Option String → Compose Node
  | 0, _, _, _, _ => refuse
  | n + 1, block, loose, name, tag => do
    let start ← openAnchor name
    let body ← content n block loose tag true
    closeAnchor start body
    return body

/-- A node after its anchor and its tag; only after one of them may nothing be written. -/
def content : Nat → Bool → Bool → Option String → Bool → Compose Node
  | 0, _, _, _, _ => refuse
  | n + 1, block, loose, tag, marked => do
    match ← peek with
    | some (.scalar isPlain text) => do
      next
      scalar tag isPlain text
    | some .flowSequence => do
      next
      return retag tag (← flowItems n [] true)
    | some .flowMapping => do
      next
      return retag tag (← flowEntries n [] true)
    | some .blockSequence =>
      if block then do
        next
        return retag tag (← blockItems n [])
      else nothing tag marked
    | some .blockMapping =>
      if block then do
        next
        return retag tag (← blockEntries n [])
      else nothing tag marked
    | some .blockItem =>
      if loose then return retag tag (← looseItems n []) else nothing tag marked
    | _ => nothing tag marked

def blockItems : Nat → List Node → Compose Node
  | 0, _ => refuse
  | n + 1, done => do
    match ← peek with
    | some .blockItem => do
      next
      let item ← nodeUnless n [.blockItem, .blockEnd] true false
      blockItems n (item :: done)
    | some .blockEnd => do
      next
      sequence done.reverse
    | _ => refuse

/-- The items of a block sequence that is not indented, up to the first token of another kind. -/
def looseItems : Nat → List Node → Compose Node
  | 0, _ => refuse
  | n + 1, done => do
    match ← peek with
    | some .blockItem => do
      next
      let item ← nodeUnless n [.blockItem, .key, .value, .blockEnd] true false
      looseItems n (item :: done)
    | _ => sequence done.reverse

def blockEntries : Nat → List (Node × Node) → Compose Node
  | 0, _ => refuse
  | n + 1, done => do
    match ← peek with
    | some .key => do
      next
      let key ← nodeUnless n [.key, .value, .blockEnd] true true
      let value ← if ← isNext [.value] then do
          next
          nodeUnless n [.key, .value, .blockEnd] true true
        else absent
      blockEntries n ((key, value) :: done)
    | some .blockEnd => do
      next
      mapping done.reverse
    | _ => refuse

/-- A node, or nothing before some tokens. -/
def nodeUnless : Nat → List Token → Bool → Bool → Compose Node
  | 0, _, _, _ => refuse
  | n + 1, ts, block, loose => do
    if ← isNext ts then absent else node n block loose

/-- The items in brackets up to the closing one, a comma before each but the first. -/
def flowItems : Nat → List Node → Bool → Compose Node
  | 0, _, _ => refuse
  | n + 1, done, isFirst => do
    if ← isNext [.flowSequenceEnd] then
      next
      sequence done.reverse
    else
      if !isFirst then expect .flowItem
      match ← peek with
      | some .flowSequenceEnd => do
        next
        sequence done.reverse
      | some .key => do
        next
        let entry ← flowPair n
        flowItems n (entry :: done) false
      | _ => do
        let item ← node n false false
        flowItems n (item :: done) false

/-- A map with one entry as an item in brackets, its key token read. A colon right after that token
is passed over. -/
def flowPair : Nat → Compose Node
  | 0 => refuse
  | n + 1 => do
    let key ← if ← isNext [.value, .flowItem, .flowSequenceEnd] then do
        next
        absent
      else node n false false
    let value ← if ← isNext [.value] then do
        next
        nodeUnless n [.flowItem, .flowSequenceEnd] false false
      else absent
    mapping [(key, value)]

/-- The entries in braces up to the closing one, a comma before each but the first. -/
def flowEntries : Nat → List (Node × Node) → Bool → Compose Node
  | 0, _, _ => refuse
  | n + 1, done, isFirst => do
    if ← isNext [.flowMappingEnd] then
      next
      mapping done.reverse
    else
      if !isFirst then expect .flowItem
      match ← peek with
      | some .flowMappingEnd => do
        next
        mapping done.reverse
      | some .key => do
        next
        let key ← nodeUnless n [.value, .flowItem, .flowMappingEnd] false false
        let value ← if ← isNext [.value] then do
            next
            nodeUnless n [.flowItem, .flowMappingEnd] false false
          else absent
        flowEntries n ((key, value) :: done) false
      | _ => do
        let key ← node n false false
        let value ← absent
        flowEntries n ((key, value) :: done) false

end

/-- The tokens before which a document that has started may have nothing. -/
def documentBounds : List Token := [.documentStart, .documentEnd]

/-- Adds what a handle stands for; a directive may say it once. -/
def addShorthand (handle start : String) : Compose Unit := do
  let c ← get
  if (c.shorthands.lookup handle).isSome then refuse
  else set { c with shorthands := (handle, start) :: c.shorthands }

/-- Reads directives, `versioned` telling that the version has been named. Told is whether there
are any. -/
def readDirectives : Nat → Bool → Compose Bool
  | 0, _ => refuse
  | n + 1, versioned => do
    match ← peek with
    | some (.version major minor) =>
      if versioned || major ≠ 1 || (minor ≠ 1 && minor ≠ 2) then refuse
      else
        next
        let _ ← readDirectives n true
        return true
    | some (.shorthand handle start) =>
      addShorthand handle start
      next
      let _ ← readDirectives n versioned
      return true
    | _ => return false

def document (fuel : Nat) : Compose Node := do
  let directed ← readDirectives fuel false
  modify fun c => { c with shorthands := c.shorthands ++ standardShorthands }
  let marked ← isNext [.documentStart]
  if marked then next
  if directed && !marked then refuse
  let root ← if marked && ((← peek).isNone || (← isNext documentBounds)) then absent
    else node fuel true false
  skipEnds fuel
  if (← peek).isNone then return root else refuse
where
  /-- Goes past the marks that end a document. -/
  skipEnds : Nat → Compose Unit
    | 0 => return ()
    | n + 1 => do
      if ← isNext [.documentEnd] then
        next
        skipEnds n

end Compose

def depthLimit : Nat := 128

/-- How many aliases may be followed for each start or end of a node. -/
def jumpFactor : Nat := 100

/-- The value of the one document in a text; a text without any is null. -/
def read? (text : String) : Option Json := do
  let tokens ← tokens? text
  if tokens.isEmpty then return .null
  let start : Composition := ⟨tokens, [], [], 0, [], 0, []⟩
  let (root, c) ← (Compose.document (5 * tokens.length + 5)).run start
  if root.depth ≤ depthLimit && root.jumps ≤ jumpFactor * c.events then root.value else none

end DeployPlan.Yaml
