import DeployPlan.Proofs.Plan.Decoration
import DeployPlan.Proofs.Tree.Context

/-!
# Nodes of a plan by id

Several nodes of a plan may have one id. A search finds the first of them in preorder and an update
changes that one: all other nodes stay as they are and where they are, but for what the update takes
away below it.
-/
namespace DeployPlan.Plan

variable {p : Plan} {id : String}

theorem find?_eq_none_iff : p.find? id = none ↔ id ∉ p.ids := by
  rw [← isNone_find?_iff, Option.isNone_iff_eq_none]

theorem update?_eq_none_iff (f : PlanTree → PlanTree) : p.update? id f = none ↔ id ∉ p.ids := by
  rw [update?, Option.map_eq_none_iff, Tree.updateIn?_eq_none_iff, ← find?_eq_none_iff, find?]

/-- For every id a search gives the first node of it in preorder, and there are as many nodes as
preorder lists. What a search finds stands at a place before which no node has the id. An update
makes its change there, whatever it changes; around the place all nodes stay in their order, and the
whole plan keeps its shape, and all labels but one, when the change keeps the children of the
node. -/
theorem find?_first_update?_local (p : Plan) (id : String) :
    p.find? id = (Tree.subtreesOf p.roots).find? (·.label.id = id) ∧
    (p.find? id = none ↔ id ∉ p.ids) ∧
    (∀ f, p.update? id f = none ↔ id ∉ p.ids) ∧
    p.nodeCount = (Tree.subtreesOf p.roots).length ∧
    ∀ t, p.find? id = some t → ∃ c : Tree.Context NodePlan,
      c.fill t = p.roots ∧ t.label.id = id ∧ (∀ n ∈ c.before, n.id ≠ id) ∧
      Tree.labelsOf p.roots = c.before ++ t.labels ++ c.after ∧
      ∀ f, p.update? id f = some { p with roots := c.fill (f t) } ∧
        Tree.labelsOf (c.fill (f t)) = c.before ++ (f t).labels ++ c.after ∧
        ((f t).children = t.children →
          (c.fill (f t)).map (Tree.map fun _ => ()) = p.told (fun _ => ()) ∧
          Tree.labelsOf (c.fill (f t)) =
            (Tree.labelsOf p.roots).set c.before.length (f t).label) := by
  refine ⟨Tree.findIn?_eq_find?_subtreesOf (hasId id) p.roots, find?_eq_none_iff,
    update?_eq_none_iff, (Tree.length_subtreesOf p.roots).symm, fun t ht => ?_⟩
  obtain ⟨c, hfirst⟩ := Tree.findIn?_eq_some_iff.1 ht
  have hid : t.label.id = id := of_decide_eq_true hfirst.passes
  have hbefore : ∀ n ∈ c.before, n.id ≠ id := fun n hn => of_decide_eq_false (hfirst.first n hn)
  have hlabels : Tree.labelsOf p.roots = c.before ++ t.labels ++ c.after := by
    rw [← hfirst.filled, c.labelsOf_fill]
  refine ⟨c, hfirst.filled, hid, hbefore, hlabels, fun f => ⟨?_, c.labelsOf_fill (f t), ?_⟩⟩
  · rw [update?, hfirst.updateIn?_eq f, Option.map_some]
  · intro hchildren
    constructor
    · rw [told, ← hfirst.filled]
      exact c.map_fill_congr (Tree.map_const_congr hchildren ())
    · rw [c.labelsOf_fill, hlabels, Tree.labels_eq_cons, Tree.labels_eq_cons t, hchildren]
      simp

/-- Two nodes of one id beside each other, the first of them with a node on it. -/
def mirroredPlan : Plan :=
  ⟨"site", [.node (bare "vm") [.node (bare "db") [], .node (bare "app") [.node (bare "log") []]],
    .node (bare "app") []], []⟩
where
  /-- A node plan with nothing but an id. -/
  bare (id : String) : NodePlan := { NodePlan.start .applicationRoot .empty with id := id }

/-- The first node is found, renamed and cleared of the node on it; the second one stays. -/
theorem find?_mirroredPlan :
    let app : PlanTree := .node (mirroredPlan.bare "app") [.node (mirroredPlan.bare "log") []]
    let rename : PlanTree → PlanTree := Tree.mapLabel fun n => { n with id := "web" }
    mirroredPlan.find? "app" = some app ∧
    (∃ c : Tree.Context NodePlan, c.fill app = mirroredPlan.roots ∧
      (∀ n ∈ c.before, n.id ≠ "app") ∧
      mirroredPlan.update? "app" rename =
        some { mirroredPlan with roots := c.fill (rename app) } ∧
      (c.fill (rename app)).map (Tree.map fun _ => ()) = mirroredPlan.told fun _ => ()) ∧
    (mirroredPlan.update? "app" rename).map Plan.ids = some ["vm", "db", "web", "log", "app"] ∧
    (mirroredPlan.update? "app" fun t => .node t.label []).map Plan.ids =
      some ["vm", "db", "app", "app"] := by
  intro app rename
  have hfound : mirroredPlan.find? "app" = some app := by rfl
  obtain ⟨-, -, -, -, hlocal⟩ := find?_first_update?_local mirroredPlan "app"
  obtain ⟨c, hfill, -, hbefore, -, hupdate⟩ := hlocal app hfound
  obtain ⟨hrenamed, -, hkept⟩ := hupdate rename
  refine ⟨hfound, ⟨c, hfill, hbefore, hrenamed, (hkept rfl).1⟩, ?_, ?_⟩
  · decide +kernel
  · decide +kernel

end DeployPlan.Plan
