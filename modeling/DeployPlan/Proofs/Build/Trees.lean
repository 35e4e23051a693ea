import DeployPlan.Compiler
import DeployPlan.Proofs.Build.Steps
import DeployPlan.Proofs.Tree.Unvisited

/-!
# Trees that are built

A tree of node plans leaves out the nodes met before while it is built. The same is built when these
are left out of the tree of ids first, and then all of what is left is built over.
-/
namespace DeployPlan.Build

variable {job : Job} {g : Containment}

mutual

/-- The tree of node plans over all nodes of a tree of ids. -/
def treeOver (job : Job) (g : Containment) : Tree String → Build PlanTree
  | .node id below =>
    tagged (nodeTags id) do
      let p ← nodePlan job id (g.childCount id)
      let children ← treesOver job g below
      return .node p children

def treesOver (job : Job) (g : Containment) : List (Tree String) → Build (List PlanTree)
  | [] => return []
  | t :: ts => do
    let first ← treeOver job g t
    let rest ← treesOver job g ts
    return first :: rest

end

mutual

/-- To leave nodes out while a tree is built is to leave them out first. -/
theorem tree_eq (t : Tree String) (visited : List String) : tree job g t visited =
    (·, (t.unvisited visited).2) <$> treeOver job g (t.unvisited visited).1 := by
  match t with
  | .node id below =>
    have hbelow := trees_eq below (id :: visited)
    rw [tree, Tree.unvisited_node, treeOver, map_tagged, hbelow]
    simp only [map_bind, map_pure, bind_map_left]

theorem trees_eq (ts : List (Tree String)) (visited : List String) : trees job g ts visited =
    (·, (Tree.unvisitedOf ts visited).2) <$> treesOver job g (Tree.unvisitedOf ts visited).1 := by
  match ts with
  | [] => rfl
  | t :: ts =>
    rw [trees]
    by_cases h : t.label ∈ visited
    · have hrest := trees_eq ts visited
      rw [if_pos (by simpa using h), hrest, Tree.unvisitedOf_of_mem h]
    · have hfirst := tree_eq t visited
      have hrest := trees_eq ts (t.unvisited visited).2
      rw [if_neg (by simpa using h), hfirst, Tree.unvisitedOf_of_not_mem h, treesOver]
      simp only [map_bind, map_pure, bind_map_left, hrest]

end

/-- A forest goes on with the tree of a new root, and with what was met before and in that tree. -/
theorem forest_cons (job : Job) (id : String) (ids : List String) (g : Containment)
    (visited : List String) :
    forest job (id :: ids) g visited = ofExcept (g.root id).1 >>= fun root =>
      if root ∈ visited then forest job ids (g.root id).2 visited
      else treeOver job (g.root id).2 (((g.root id).2.tree root).unvisited visited).1 >>=
        fun first => forest job ids (g.root id).2
          (((g.root id).2.tree root).unvisited visited).2 >>= fun rest => pure (first :: rest) := by
  rw [forest]
  generalize g.root id = found
  refine bind_congr fun root => ?_
  simp only [List.contains_iff_mem, tree_eq, bind_map_left]

end DeployPlan.Build
