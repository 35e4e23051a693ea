import DeployPlan.Property

/-!
# Texts with gaps

A format text is a list of texts and of gaps that are filled from runtime attributes. Pushing text
extends the last text, so that no two texts stand side by side and none is empty. A resolution is a
value, something left to run time, or nothing.
-/
namespace DeployPlan

structure AttributeRef where
  node : String
  name : String
deriving DecidableEq, Repr

/-- The text that stands for a gap. -/
def AttributeRef.display (a : AttributeRef) : String := s!"$[{a.node}.{a.name}]"

inductive FormatPart where
  | text (text : String)
  | gap (ref : AttributeRef)
deriving DecidableEq, Repr

def FormatPart.render (fill : AttributeRef → String) : FormatPart → String
  | text t => t
  | gap a => fill a

def FormatPart.gap? : FormatPart → Option AttributeRef
  | text _ => none
  | gap a => some a

structure FormatText where
  parts : List FormatPart
deriving DecidableEq, Repr

/-- What is left to run time: one attribute or a whole format text. -/
inductive Deferred where
  | gap (ref : AttributeRef)
  | format (format : FormatText)
deriving DecidableEq, Repr

inductive Resolution where
  | resolved (value : Json)
  | deferred (deferred : Deferred)
  | unresolved
deriving DecidableEq, Repr

namespace FormatText

def empty : FormatText := ⟨[]⟩

/-- The parts with a text at the end, joined to a text that is there. -/
def addText (t : String) : List FormatPart → List FormatPart
  | [] => [.text t]
  | [.text s] => [.text (s ++ t)]
  | p :: ps => p :: addText t ps

/-- Pushes a text; the empty one changes nothing. -/
def pushText (f : FormatText) (t : String) : FormatText :=
  if t = "" then f else ⟨addText t f.parts⟩

def pushGap (f : FormatText) (a : AttributeRef) : FormatText := ⟨f.parts ++ [.gap a]⟩

def pushPart (f : FormatText) : FormatPart → FormatText
  | .text t => f.pushText t
  | .gap a => f.pushGap a

def append (f g : FormatText) : FormatText := g.parts.foldl pushPart f

/-- Pushes what a resolution stands for; an unresolved one changes nothing. -/
def pushResolution (f : FormatText) : Resolution → FormatText
  | .resolved v => f.pushText v.text
  | .deferred (.gap a) => f.pushGap a
  | .deferred (.format g) => f.append g
  | .unresolved => f

def isLiteral (f : FormatText) : Bool := f.parts.all fun p => p.gap?.isNone

def gaps (f : FormatText) : List AttributeRef := f.parts.filterMap FormatPart.gap?

/-- The text with gaps filled by `fill`. -/
def render (fill : AttributeRef → String) (f : FormatText) : String :=
  String.join (f.parts.map (FormatPart.render fill))

def display (f : FormatText) : String := f.render AttributeRef.display

/-- A text without gaps is a value; one with gaps is left to run time. -/
def toResolution (f : FormatText) : Resolution :=
  if f.isLiteral then .resolved (.str f.display) else .deferred (.format f)

/-- The parts of several format texts, a line break between each two. -/
def joinLines : List FormatText → FormatText
  | [] => empty
  | f :: fs => fs.foldl (fun joined g => (joined.pushText "\n").append g) (empty.append f)

@[simp] theorem pushText_empty (f : FormatText) : f.pushText "" = f := by simp [pushText]

@[simp] theorem gaps_pushGap (f : FormatText) (a : AttributeRef) :
    (f.pushGap a).gaps = f.gaps ++ [a] := by
  simp [gaps, pushGap, FormatPart.gap?]

theorem addText_gaps (t : String) (ps : List FormatPart) :
    (addText t ps).filterMap FormatPart.gap? = ps.filterMap FormatPart.gap? := by
  induction ps using addText.induct with
  | case1 => rfl
  | case2 => rfl
  | case3 p ps h ih =>
    rw [addText]
    · simp only [List.filterMap_cons, ih]
    · exact h

@[simp] theorem gaps_pushText (f : FormatText) (t : String) :
    (f.pushText t).gaps = f.gaps := by
  unfold pushText gaps
  split
  · rfl
  · exact addText_gaps t f.parts

/-- A format text has no gaps exactly when it lists no attribute. -/
theorem isLiteral_iff (f : FormatText) : f.isLiteral = true ↔ f.gaps = [] := by
  simp [isLiteral, gaps, List.all_eq_true, List.filterMap_eq_nil_iff,
    Option.isNone_iff_eq_none]

end FormatText

def Deferred.display : Deferred → String
  | gap a => a.display
  | format f => f.display

def AttributeRef.fields (a : AttributeRef) : Fields :=
  [("node", .str a.node), ("attribute", .str a.name)]

def FormatPart.json : FormatPart → Json
  | text t => .str t
  | gap a => .obj a.fields

def Deferred.json : Deferred → Json
  | gap a => .obj (("deferred", .str "attribute") :: a.fields)
  | format f => .obj [("deferred", .str "format"), ("parts", .arr (f.parts.map (·.json)))]

def Resolution.value? : Resolution → Option Json
  | resolved v => some v
  | _ => none

/-- A value placed on a plan: known now or left to run time. -/
inductive PlanValue where
  | literal (value : Json)
  | deferred (deferred : Deferred)
deriving DecidableEq, Repr

namespace PlanValue

def ofText (t : String) : PlanValue := literal (.str t)

/-- The plan value of a resolution, unless nothing was resolved. -/
def ofResolution? : Resolution → Option PlanValue
  | .resolved v => some (literal v)
  | .deferred d => some (deferred d)
  | .unresolved => none

def literal? : PlanValue → Option Json
  | literal v => some v
  | deferred _ => none

def string? (v : PlanValue) : Option String := v.literal?.bind Json.asString?

/-- A later value joined to an earlier one: maps merge, lists append, anything else is replaced. -/
def join : PlanValue → PlanValue → PlanValue
  | literal (.obj old), literal (.obj new) => literal (.obj (Entries.putAll old new))
  | literal (.arr old), literal (.arr new) => literal (.arr (old ++ new))
  | _, newer => newer

/-- The text of a plan value: a string bare, any other literal as compact text. -/
def display : PlanValue → String
  | literal (.str t) => t
  | literal v => v.compact
  | deferred d => d.display

def json : PlanValue → Json
  | literal v => v
  | deferred d => d.json

end PlanValue

end DeployPlan
