/-!
# Labelled trees

A tree carries a label and an ordered list of subtrees. Search goes through labels in preorder and
stops at the first hit; an update changes the tree found and nothing else.
-/
namespace DeployPlan

inductive Tree (α : Type) where
  | node (label : α) (children : List (Tree α))

namespace Tree

variable {α β : Type}

def label : Tree α → α
  | node a _ => a

def children : Tree α → List (Tree α)
  | node _ ts => ts

mutual

def subtrees : Tree α → List (Tree α)
  | node a ts => node a ts :: subtreesOf ts

def subtreesOf : List (Tree α) → List (Tree α)
  | [] => []
  | t :: ts => subtrees t ++ subtreesOf ts

end

mutual

def find? (p : α → Bool) : Tree α → Option (Tree α)
  | node a ts => if p a then some (node a ts) else findIn? p ts

/-- The first subtree of some trees in preorder whose label passes a test. -/
def findIn? (p : α → Bool) : List (Tree α) → Option (Tree α)
  | [] => none
  | t :: ts =>
    match find? p t with
    | some hit => some hit
    | none => findIn? p ts

end

mutual

/-- The tree with the first subtree in preorder whose label passes a test changed by `f`; none when
no label passes. -/
def update? (p : α → Bool) (f : Tree α → Tree α) : Tree α → Option (Tree α)
  | node a ts => if p a then some (f (node a ts)) else (updateIn? p f ts).map (node a)

/-- The trees with the first subtree in preorder whose label passes a test changed by `f`. -/
def updateIn? (p : α → Bool) (f : Tree α → Tree α) : List (Tree α) → Option (List (Tree α))
  | [] => none
  | t :: ts =>
    match update? p f t with
    | some t' => some (t' :: ts)
    | none => (updateIn? p f ts).map (t :: ·)

end

def mapLabel (f : α → α) : Tree α → Tree α
  | node a ts => node (f a) ts

mutual

def count : Tree α → Nat
  | node _ ts => 1 + countOf ts

def countOf : List (Tree α) → Nat
  | [] => 0
  | t :: ts => count t + countOf ts

end

def labelsOf (ts : List (Tree α)) : List α := (subtreesOf ts).map label

mutual

theorem length_subtrees (t : Tree α) : t.subtrees.length = t.count := by
  match t with
  | node a ts => simp [subtrees, count, length_subtreesOf ts, Nat.add_comm]

theorem length_subtreesOf (ts : List (Tree α)) : (subtreesOf ts).length = countOf ts := by
  match ts with
  | [] => simp [subtreesOf, countOf]
  | t :: ts => simp [subtreesOf, countOf, length_subtrees t, length_subtreesOf ts]

end

@[simp] theorem length_labelsOf (ts : List (Tree α)) : (labelsOf ts).length = countOf ts := by
  simp [labelsOf, length_subtreesOf]

end Tree

end DeployPlan
