/-!
# Blank text

White space is the Unicode property White_Space, twenty-five code points. A text is blank when it
holds nothing else. Trimming and word splitting are stated on lists of characters.
-/
namespace DeployPlan.Text

/-- The Unicode property White_Space. -/
def isBlankChar (c : Char) : Bool :=
  let n := c.toNat
  (9 ≤ n && n ≤ 13) || n == 0x20 || n == 0x85 || n == 0xA0 || n == 0x1680 ||
    (0x2000 ≤ n && n ≤ 0x200A) || n == 0x2028 || n == 0x2029 || n == 0x202F || n == 0x205F ||
    n == 0x3000

/-- Whether a text holds white space only; the empty text does. -/
def isBlank (s : String) : Bool := s.toList.all isBlankChar

/-- The characters left after white space at both ends is dropped. -/
def trimChars (cs : List Char) : List Char :=
  ((cs.dropWhile isBlankChar).reverse.dropWhile isBlankChar).reverse

def trim (s : String) : String := String.ofList (trimChars s.toList)

/-- The maximal runs of other characters, in order, with `run` the one being read. -/
def wordsFrom (run : List Char) : List Char → List (List Char)
  | [] => if run.isEmpty then [] else [run]
  | c :: cs =>
    if isBlankChar c then
      if run.isEmpty then wordsFrom [] cs else run :: wordsFrom [] cs
    else wordsFrom (run ++ [c]) cs

/-- The words of a text: its maximal runs without white space. -/
def words (s : String) : List String := (wordsFrom [] s.toList).map String.ofList

/-- The text after the longest run of `c` at its start. -/
def dropLeading (c : Char) (s : String) : String :=
  String.ofList (s.toList.dropWhile (· == c))

/-- The text before the longest run of `c` at its end. -/
def dropTrailing (c : Char) (s : String) : String :=
  String.ofList (s.toList.reverse.dropWhile (· == c)).reverse

def afterStart? (start s : String) : Option String :=
  if start.toList.isPrefixOf s.toList then some (String.ofList (s.toList.drop start.toList.length))
  else none

def hasStart (start s : String) : Bool := start.toList.isPrefixOf s.toList

end DeployPlan.Text
