import DeployPlan.Toml.Document

/-!
# Reports of refusals

A refusal is reported with the line that it is about and a sign below the place in it. Only what is
nested too deeply is worded; other refusals have no report.
-/
namespace DeployPlan.Toml

/-- The lines of a text, the characters of the last one first among those `line` holds. -/
def linesFrom (line : List Char) : List Char → List (List Char)
  | [] => [line.reverse]
  | c :: cs => if c = '\n' then line.reverse :: linesFrom [] cs else linesFrom (c :: line) cs

def lines (cs : List Char) : List (List Char) := linesFrom [] cs

def byteCount (cs : List Char) : Nat := cs.foldl (fun n c => n + c.utf8Size) 0

/-- A report of what is wrong at the place from which `left` characters remain. -/
def reportAt (text : String) (left : Nat) (problem : String) : String :=
  let cs := characters text
  let here := cs.drop (cs.length - left)
  let before := lines (cs.take (cs.length - left))
  let mark := if before.length = 1 && text.toList.head? = some '\uFEFF' then 1 else 0
  let column := (before.getLast?.getD []).length + mark
  let content := (lines text.toList).getD (before.length - 1) []
  let size := min ((here.head?.map Char.utf8Size).getD 0) (byteCount content - column)
  let number := toString before.length
  let gutter := String.ofList (List.replicate (number.length + 1) ' ') ++ "|"
  let sign := String.ofList (List.replicate (column + 1) ' ' ++ List.replicate (max size 1) '^')
  "\n".intercalate
    [s!"TOML parse error at line {number}, column {toString (column + 1)}", gutter,
      s!"{number} | {String.ofList content}", gutter ++ sign, problem, ""]

/-- What is said of something that is nested too deeply. -/
def depthProblem : String := "recursion limit exceeded"

/-- The report of a refusal, if it has one. -/
def Refusal.report? (text : String) : Refusal → Option String
  | .malformed => none
  | .tooDeep left => some (reportAt text left depthProblem)
  | .tooDeepHeader left => some (reportAt text left s!"invalid table header\n{depthProblem}")
  | .tooDeepEntry left =>
    some (reportAt text left "invalid inline table\nexpected \x60\x7d\x60")

end DeployPlan.Toml
