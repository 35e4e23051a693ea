import DeployPlan.Proofs.Build.Trees
import DeployPlan.Proofs.Containment.Branch
import DeployPlan.Proofs.Containment.Topmost
import DeployPlan.Proofs.Overlay
import DeployPlan.Proofs.Plan.Decoration
import DeployPlan.Proofs.Plan.Identity

/-!
# Plans are containment forests

Building copies what is not met before of the tree of ids below each root, and decorating changes no
id. When ids are distinct nothing is met before. So every declared node has one node plan, over
those of its children in declaration order, and the roots are the nodes without a parent.
-/
namespace DeployPlan

namespace Plan

/-- A plan of a topology has the shape of its containment: each declared node once, the nodes
without a parent on top, and below each node those placed on it, in declaration order. -/
structure IsContainmentForest (p : Plan) (t : Topology) : Prop where
  ids_perm : ((Tree.labelsOf p.roots).map (·.id)).Perm t.ids
  roots_perm : (p.roots.map (·.label.id)).Perm
    ((t.nodes.filter (·.hostParent? = none)).map (·.id))
  childIds_eq : ∀ q ∈ Tree.subtreesOf p.roots,
    PlanTree.childIds q = (t.nodes.filter (·.hostParent? = some q.label.id)).map (·.id)

namespace IsContainmentForest

variable {p : Plan} {t : Topology} {n : NodeTemplate} {id : String}

theorem nodeCount_eq (h : p.IsContainmentForest t) : p.nodeCount = t.nodes.length := by
  have hl := h.ids_perm.length_eq
  rwa [List.length_map, Tree.length_labelsOf, Topology.ids, List.length_map] at hl

/-- Each declared id has a node plan. -/
theorem exists_subtree (h : p.IsContainmentForest t) (hid : id ∈ t.ids) :
    ∃ q ∈ Tree.subtreesOf p.roots, q.label.id = id := by
  have hmem := h.ids_perm.mem_iff.2 hid
  rw [Tree.labelsOf, List.map_map] at hmem
  exact List.mem_map.1 hmem

theorem hostParent?_of_mem_childIds (h : p.IsContainmentForest t) (hids : t.ids.Nodup)
    (hn : n ∈ t.nodes) {q : PlanTree} (hq : q ∈ Tree.subtreesOf p.roots)
    (hmem : n.id ∈ PlanTree.childIds q) : n.hostParent? = some q.label.id := by
  rw [h.childIds_eq q hq] at hmem
  obtain ⟨m, hm, hmn⟩ := List.mem_map.1 hmem
  obtain ⟨hm, hparent⟩ := List.mem_filter.1 hm
  rw [← List.inj_on_of_nodup_map hids hm hn hmn]
  simpa using hparent

/-- A declared node is on top exactly when it has no parent. -/
theorem mem_roots_iff (h : p.IsContainmentForest t) (hids : t.ids.Nodup) (hn : n ∈ t.nodes) :
    (∃ q ∈ p.roots, q.label.id = n.id) ↔ n.hostParent? = none := by
  rw [← List.mem_map, h.roots_perm.mem_iff, List.mem_map]
  constructor
  · rintro ⟨m, hm, hmn⟩
    obtain ⟨hm, hnone⟩ := List.mem_filter.1 hm
    rw [← List.inj_on_of_nodup_map hids hm hn hmn]
    simpa using hnone
  · intro hnone
    exact ⟨n, List.mem_filter.2 ⟨hn, by simpa using hnone⟩, rfl⟩

end IsContainmentForest

end Plan

namespace Build

variable {job : Job}

mutual

/-- The tree that is built over a tree of ids has these ids in its places. -/
theorem ids_of_treeOver {g : Containment} {ids : Tree String} {p p' : Pass} {t : PlanTree}
    (h : treeOver job g ids p = (.ok t, p')) : Tree.map NodePlan.id t = ids := by
  match ids with
  | .node id below =>
    rw [treeOver] at h
    obtain ⟨q, q', h⟩ := tagged_eq_ok h
    obtain ⟨n, q₁, hn, h⟩ := bind_eq_ok h
    obtain ⟨children, q₂, hc, h⟩ := bind_eq_ok h
    cases h
    rw [Tree.map, id_of_nodePlan hn, ids_of_treesOver hc]

theorem ids_of_treesOver {g : Containment} {ids : List (Tree String)} {p p' : Pass}
    {ts : List PlanTree} (h : treesOver job g ids p = (.ok ts, p')) :
    Tree.mapAll NodePlan.id ts = ids := by
  match ids with
  | [] =>
    rw [treesOver] at h
    cases h
    rfl
  | id :: ids =>
    rw [treesOver] at h
    obtain ⟨first, q₁, hf, h⟩ := bind_eq_ok h
    obtain ⟨rest, q₂, hr, h⟩ := bind_eq_ok h
    cases h
    rw [Tree.mapAll, ids_of_treeOver hf, ids_of_treesOver hr]

end

/-- A forest that is built finds something on top of each of its nodes. It is built over what is not
met before of the trees below. -/
theorem ids_of_forest {g : Containment} (hg : g.Describes job.scene.topology)
    {ids visited : List String} (hids : ∀ id ∈ ids, id ∈ job.scene.topology.ids) {p p' : Pass}
    {ts : List PlanTree} (h : forest job ids g visited p = (.ok ts, p')) :
    (∀ id ∈ ids, job.scene.topology.topmost? id ≠ none) ∧
      ts.map (Tree.map NodePlan.id) =
        (Tree.unvisitedOf ((ids.filterMap job.scene.topology.topmost?).map g.tree) visited).1 := by
  induction ids generalizing g visited p ts with
  | nil =>
    cases h
    exact ⟨List.forall_mem_nil _, rfl⟩
  | cons id ids ih =>
    rw [List.forall_mem_cons] at hids
    rw [forest_cons] at h
    obtain ⟨root, q₁, hroot, h⟩ := bind_eq_ok h
    rw [ofExcept_run] at hroot
    obtain ⟨hfound, rfl⟩ := Prod.mk.inj hroot
    have htop := (hg.root_eq_ok_iff_topmost? hids.1).1 hfound
    have hg' := hg.after [id]
    rw [Containment.after, List.foldl_cons, List.foldl_nil] at hg'
    -- the graph that remembers the root has the same trees
    have htree : (g.root id).2.tree = g.tree :=
      Containment.tree_congr (g.ids_root id) (g.placements_root id)
    have hlabel : (g.tree root).label = root := g.label_treeWithin _ root
    rw [List.forall_mem_cons, List.filterMap_cons_some htop, List.map_cons]
    split at h
    · next hmet =>
      obtain ⟨htops, hts⟩ := ih hg' hids.2 h
      refine ⟨⟨by simp [htop], htops⟩, ?_⟩
      rw [hts, htree, Tree.unvisitedOf_of_mem (by rwa [hlabel])]
    · next hnew =>
      obtain ⟨first, q₂, hfirst, h⟩ := bind_eq_ok h
      obtain ⟨rest, q₃, hrest, h⟩ := bind_eq_ok h
      cases h
      obtain ⟨htops, hts⟩ := ih hg' hids.2 hrest
      refine ⟨⟨by simp [htop], htops⟩, ?_⟩
      rw [htree] at hfirst hts
      rw [Tree.unvisitedOf_of_not_mem (by rwa [hlabel]), List.map_cons, ids_of_treeOver hfirst, hts]

/-- The end of a plan, its roots being known: groups decorate it. -/
def finish (job : Job) (roots : List PlanTree) : Build Plan := do
  let t := job.scene.topology
  let p ← onLog (Plan.decorate job.registry t.groups ⟨t.name, roots, []⟩)
  Eval.note .info "topology compiled"
    [("roots", .ofNat p.roots.length), ("nodes", .ofNat p.nodeCount)]
  return p

/-- A plan is a forest over the containment graph, finished when all targets are declared. -/
theorem plan_eq (job : Job) : plan job = onLog (Containment.build job.scene.topology) >>= fun g =>
    checkTargets job.scene.topology >>= fun _ => forest job g.ids g [] >>= finish job := rfl

/-- To look at the targets of relationships changes nothing. -/
theorem eq_of_checkTargets {t : Topology} {u : Unit} {p p' : Pass}
    (h : checkTargets t p = (.ok u, p')) : p' = p := by
  cases hstray : strayTarget? t with
  | none =>
    simp only [checkTargets, hstray] at h
    cases h
    rfl
  | some stray =>
    simp only [checkTargets, hstray] at h
    cases h

/-- A plan that is built is a forest over the containment graph, decorated by the groups. -/
theorem plan_steps {p p' : Pass} {plan : Plan} (h : Build.plan job p = (.ok plan, p')) :
    ∃ (g : Containment) (log log' : Log) (ts : List PlanTree) (q : Pass),
      Containment.build job.scene.topology p.log = (.ok g, log) ∧
      forest job g.ids g [] { p with log := log } = (.ok ts, q) ∧
      Plan.decorate job.registry job.scene.topology.groups
        ⟨job.scene.topology.name, ts, []⟩ q.log = (.ok plan, log') := by
  obtain ⟨g, q₁, hgraph, h⟩ := bind_eq_ok h
  obtain ⟨_, q₂, htargets, h⟩ := bind_eq_ok h
  obtain ⟨ts, q₃, hforest, h⟩ := bind_eq_ok h
  obtain ⟨decorated, q₄, hdec, h⟩ := bind_eq_ok h
  obtain ⟨-, q₅, -, h⟩ := bind_eq_ok h
  cases h
  cases eq_of_checkTargets htargets
  unfold onLog at hgraph hdec
  split at hgraph
  next outcome log hbuild =>
  cases hgraph
  split at hdec
  next outcome' log' hdecorate =>
  cases hdec
  exact ⟨g, log, log', ts, q₃, hbuild, hforest, hdecorate⟩

end Build

namespace Topology

/-- The topmost nodes above the declared ones, each once, in the order in which they are met. -/
def rootIds (t : Topology) : List String := (t.ids.filterMap t.topmost?).eraseDups

variable {t : Topology} {id root : String}

theorem nodup_rootIds (t : Topology) : t.rootIds.Nodup := nodup_eraseDups _

/-- The trees of topmost nodes that are met again are passed over. -/
theorem unvisitedOf_eraseDups (t : Topology) (ids visited : List String) :
    Tree.unvisitedOf (ids.eraseDups.map t.containment.tree) visited =
      Tree.unvisitedOf (ids.map t.containment.tree) visited := by
  have hlabel (id : String) : (t.containment.tree id).label = id :=
    Containment.label_treeWithin _ _ id
  have hseen (seen : List String) (hsub : seen ⊆ visited) :
      Tree.unvisitedOf ((ids.filter (· ∉ seen)).eraseDups.map t.containment.tree) visited =
        Tree.unvisitedOf (ids.map t.containment.tree) visited := by
    induction ids generalizing seen visited with
    | nil => rfl
    | cons id ids ih =>
      by_cases hid : id ∈ seen
      · rw [List.filter_cons_of_neg (by simpa using hid), List.map_cons,
          Tree.unvisitedOf_of_mem (by rw [hlabel]; exact hsub hid), ih visited seen hsub]
      · rw [eraseDups_filter_cons hid fun x => List.mem_cons, List.map_cons, List.map_cons]
        by_cases hmet : id ∈ visited
        · rw [Tree.unvisitedOf_of_mem (by rwa [hlabel]), Tree.unvisitedOf_of_mem (by rwa [hlabel]),
            ih visited (id :: seen) (List.cons_subset.2 ⟨hmet, hsub⟩)]
        · have hlater : id :: seen ⊆ ((t.containment.tree id).unvisited visited).2 := by
            refine List.cons_subset.2 ⟨?_, fun x hx => (Tree.mem_unvisited _ _).2 (.inl (hsub hx))⟩
            rw [Tree.mem_unvisited, Tree.labels_eq_cons, Tree.label_unvisited, hlabel]
            exact .inr List.mem_cons_self
          rw [Tree.unvisitedOf_of_not_mem (by rwa [hlabel]),
            Tree.unvisitedOf_of_not_mem (by rwa [hlabel]), ih _ (id :: seen) hlater]
  simpa using hseen [] (List.nil_subset visited)

variable (hg : t.containment.Describes t)
include hg

/-- The roots are the nodes without a parent. -/
theorem mem_rootIds_iff :
    root ∈ t.rootIds ↔ root ∈ t.ids ∧ t.containment.parent? root = none := by
  rw [rootIds, List.mem_eraseDups, List.mem_filterMap]
  constructor
  · rintro ⟨id, hid, htop⟩
    obtain ⟨⟨k, hk⟩, hnone⟩ := (hg.topmost?_eq_some_iff hid).1 htop
    exact ⟨hg.mem_ids_of_ascend hid hk, hnone⟩
  · rintro ⟨hid, hnone⟩
    exact ⟨root, hid, (hg.topmost?_eq_some_iff hid).2 (.of_parent?_none hnone)⟩

/-- The trees of all roots together hold each node once. -/
theorem labels_rootIds_perm (hids : t.ids.Nodup) (htop : ∀ id ∈ t.ids, t.topmost? id ≠ none) :
    (t.rootIds.flatMap fun root => (t.containment.tree root).labels).Perm t.ids := by
  have hdistinct := hg.toSound.distinct hids
  have hlabels {root x : String} (hroot : root ∈ t.rootIds) :
      x ∈ (t.containment.tree root).labels ↔ t.containment.EndsAt x root :=
    Containment.mem_labels_tree hdistinct ((mem_rootIds_iff hg).1 hroot).2
  have hnodup : (t.rootIds.flatMap fun root => (t.containment.tree root).labels).Nodup := by
    refine List.nodup_flatMap.2 ⟨fun root hroot =>
      Containment.nodup_labels_tree hdistinct ((mem_rootIds_iff hg).1 hroot).2, ?_⟩
    refine List.Pairwise.imp_of_mem (fun {r s} hr hs hne => ?_) t.nodup_rootIds
    refine List.disjoint_left.2 fun x hxr hxs => ?_
    exact hne (((hlabels hr).1 hxr).unique ((hlabels hs).1 hxs))
  refine (List.perm_ext_iff_of_nodup hnodup hids).2 fun x => ?_
  rw [List.mem_flatMap]
  constructor
  · rintro ⟨root, hroot, hx⟩
    exact hg.mem_ids_of_labels ((mem_rootIds_iff hg).1 hroot).1 hx
  · intro hx
    obtain ⟨root, hroot⟩ := Option.ne_none_iff_exists'.1 (htop x hx)
    have hmem : root ∈ t.rootIds :=
      List.mem_eraseDups.2 (List.mem_filterMap.2 ⟨x, hx, hroot⟩)
    exact ⟨root, hmem, (hlabels hmem).2 ((hg.topmost?_eq_some_iff hx).1 hroot)⟩

/-- When ids are distinct no node in the trees of the roots is met before. -/
theorem unvisitedOf_rootIds (hids : t.ids.Nodup) (htop : ∀ id ∈ t.ids, t.topmost? id ≠ none) :
    (Tree.unvisitedOf (t.rootIds.map t.containment.tree) []).1 =
      t.rootIds.map t.containment.tree := by
  refine Tree.unvisitedOf_of_nodup _ [] ?_ fun _ _ => List.not_mem_nil
  rw [Tree.labelsOf_eq_flatMap, List.flatMap_map]
  exact (labels_rootIds_perm hg hids htop).nodup_iff.2 hids

omit hg

/-- None of the trees of some nodes without a parent is passed over because of another one. -/
theorem labels_unvisitedOf {roots visited : List String}
    (hnone : ∀ root ∈ roots, t.containment.parent? root = none) (hnodup : roots.Nodup)
    (hnew : ∀ root ∈ roots, root ∉ visited) :
    (Tree.unvisitedOf (roots.map t.containment.tree) visited).1.map Tree.label = roots := by
  induction roots generalizing visited with
  | nil => rfl
  | cons root roots ih =>
    rw [List.forall_mem_cons] at hnone hnew
    rw [List.nodup_cons] at hnodup
    have hlabel : (t.containment.tree root).label = root := Containment.label_treeWithin _ _ root
    rw [List.map_cons, Tree.unvisitedOf_of_not_mem (by rw [hlabel]; exact hnew.1), List.map_cons,
      Tree.label_unvisited, hlabel, ih hnone.2 hnodup.2 fun r hr => ?_]
    rw [Containment.mem_unvisited_tree_iff (hnone.2 r hr), not_or]
    exact ⟨fun heq => hnodup.1 (heq ▸ hr), hnew.2 r hr⟩

/-- The children of a node in the graph of a topology are those that declare it as their parent. -/
theorem children_containment (t : Topology) (id : String) :
    t.containment.children id = (t.nodes.filter (·.hostParent? = some id)).map (·.id) := by
  rw [Containment.children, containment, placements]
  induction t.nodes with
  | nil => rfl
  | cons n ns ih =>
    cases hp : n.hostParent? with
    | none => simp [hp, ih]
    | some parent => by_cases he : parent = id <;> simp [hp, he, ih]

end Topology

namespace Build

variable {p p' : Pass} {plan : Plan}

/-- A plan is built when the containment graph is built and every node has something on top. It is
built over what is not met before of the trees of the roots. -/
theorem plan_ok (h : Build.plan job p = (.ok plan, p')) :
    job.scene.topology.containment.Describes job.scene.topology ∧
    (∀ id ∈ job.scene.topology.ids, job.scene.topology.topmost? id ≠ none) ∧
    plan.idForest = (Tree.unvisitedOf
      (job.scene.topology.rootIds.map job.scene.topology.containment.tree) []).1 := by
  obtain ⟨g, log, _, ts, q, hbuild, hforest, hdecorate⟩ := plan_steps h
  have hg := Containment.describes_of_build hbuild
  cases Containment.eq_containment_of_build hbuild
  obtain ⟨htop, hts⟩ := ids_of_forest hg (List.Subset.refl _) hforest
  refine ⟨hg, htop, ?_⟩
  rw [Plan.idForest_of_decorate hdecorate, Topology.rootIds, Topology.unvisitedOf_eraseDups]
  exact hts

/-- In a topology that a plan is built of parents are declared. -/
theorem hostParent?_mem_ids (h : Build.plan job p = (.ok plan, p')) {n : NodeTemplate}
    (hn : n ∈ job.scene.topology.nodes) {id : String} (hid : n.hostParent? = some id) :
    id ∈ job.scene.topology.ids := by
  obtain ⟨g, log, _, ts, q, hbuild, -, -⟩ := plan_steps h
  exact Containment.hostParent?_mem_of_build hbuild hn hid

/-- However often an id is declared, a plan that is built has one node of it at most. -/
theorem nodup_ids_of_plan (h : Build.plan job p = (.ok plan, p')) : plan.ids.Nodup := by
  obtain ⟨-, -, hforest⟩ := plan_ok h
  rw [Plan.ids_eq_labelsOf, hforest]
  exact (Tree.nodup_unvisitedOf _ []).1

/-- The roots of a plan that is built are the topmost nodes in the order in which they are met. -/
theorem rootIds_of_plan (h : Build.plan job p = (.ok plan, p')) :
    plan.roots.map (·.label.id) = job.scene.topology.rootIds := by
  obtain ⟨hg, -, hforest⟩ := plan_ok h
  have hlabels : plan.roots.map (·.label.id) = plan.idForest.map Tree.label := by
    simp [Plan.idForest, Function.comp_def]
  rw [hlabels, hforest]
  exact Topology.labels_unvisitedOf (fun root hroot => ((Topology.mem_rootIds_iff hg).1 hroot).2)
    (Topology.nodup_rootIds _) fun _ _ => List.not_mem_nil

section

variable (h : Build.plan job p = (.ok plan, p')) (hids : job.scene.topology.ids.Nodup)
include h hids

/-- With distinct ids a plan is built over the whole trees of the roots. -/
theorem idForest_of_plan :
    plan.idForest =
      job.scene.topology.rootIds.map job.scene.topology.containment.tree := by
  obtain ⟨hg, htop, hforest⟩ := plan_ok h
  rw [hforest, Topology.unvisitedOf_rootIds hg hids htop]

theorem ids_perm_of_plan : plan.ids.Perm job.scene.topology.ids := by
  obtain ⟨hg, htop, -⟩ := plan_ok h
  rw [Plan.ids_eq_labelsOf, idForest_of_plan h hids, Tree.labelsOf_eq_flatMap, List.flatMap_map]
  exact Topology.labels_rootIds_perm hg hids htop

theorem roots_perm_of_plan : (plan.roots.map (·.label.id)).Perm
    ((job.scene.topology.nodes.filter (·.hostParent? = none)).map (·.id)) := by
  obtain ⟨hg, -, -⟩ := plan_ok h
  have hdistinct := hg.toSound.distinct hids
  rw [rootIds_of_plan h]
  refine (List.perm_ext_iff_of_nodup (Topology.nodup_rootIds _)
    (hids.sublist (List.filter_sublist.map _))).2 fun x => ?_
  rw [Topology.mem_rootIds_iff hg, Topology.ids, List.mem_map, List.mem_map]
  constructor
  · rintro ⟨⟨n, hn, rfl⟩, hnone⟩
    rw [hdistinct.parent?_containment hids hn] at hnone
    exact ⟨n, by simp [hn, hnone], rfl⟩
  · rintro ⟨n, hn, rfl⟩
    obtain ⟨hn, hnone⟩ : n ∈ job.scene.topology.nodes ∧ n.hostParent? = none := by
      simpa using hn
    exact ⟨⟨n, hn, rfl⟩, by rw [hdistinct.parent?_containment hids hn, hnone]⟩

theorem childIds_of_plan : ∀ q ∈ Tree.subtreesOf plan.roots,
    PlanTree.childIds q = job.scene.topology.containment.children q.label.id := by
  obtain ⟨hg, -, -⟩ := plan_ok h
  intro q hq
  have hq' := Plan.mem_subtreesOf_idForest hq
  rw [idForest_of_plan h hids, Tree.subtreesOf_eq_flatMap, List.flatMap_map] at hq'
  obtain ⟨root, hroot, hqr⟩ := List.mem_flatMap.1 hq'
  have hchildren := Containment.children_of_mem_subtrees_tree (hg.toSound.distinct hids)
    ((Topology.mem_rootIds_iff hg).1 hroot).2 hqr
  rw [Tree.label_map, Tree.children_map, List.map_map] at hchildren
  rw [← hchildren, PlanTree.childIds]
  simp [Function.comp_def]

/-- A plan that is built is the containment forest of its topology. -/
theorem isContainmentForest_of_plan : plan.IsContainmentForest job.scene.topology where
  ids_perm := ids_perm_of_plan h hids
  roots_perm := roots_perm_of_plan h hids
  childIds_eq := fun q hq => by
    rw [childIds_of_plan h hids q hq, Topology.children_containment]

end

end Build

end DeployPlan
