import DeployPlan.Proofs.Build.NodeFaults
import DeployPlan.Proofs.Containment.Loop
import DeployPlan.Proofs.Overlay
import DeployPlan.Proofs.Plan.Forest
import DeployPlan.Proofs.Plan.GroupFaults

/-!
# What can be wrong with a topology

The plan of a topology fails when a node is placed on one that is not declared or leads to one, when
nodes are placed on one another in a loop, when something is wrong with a node, and when something
is wrong with a group; and in no other case.
-/
namespace DeployPlan

namespace Topology

/-- The declared nodes that a traversal of the trees below some nodes meets, apart from those it has
met before. -/
def nodesBelow (t : Topology) (visited tops : List String) : List NodeTemplate :=
  (Tree.labelsOf (Tree.unvisitedOf (tops.map t.containment.tree) visited).1).filterMap t.node?

/-- The nodes in the order in which their plans are built: below the topmost node of each in turn.
-/
def buildOrder (t : Topology) : List NodeTemplate := t.nodesBelow [] (t.ids.filterMap t.topmost?)

variable {t : Topology} {visited tops : List String} {root : String}

theorem nodesBelow_of_mem (h : root ∈ visited) :
    t.nodesBelow visited (root :: tops) = t.nodesBelow visited tops := by
  have hlabel : (t.containment.tree root).label = root := Containment.label_treeWithin _ _ root
  rw [nodesBelow, List.map_cons, Tree.unvisitedOf_of_mem (by rwa [hlabel]), nodesBelow]

theorem nodesBelow_of_not_mem (h : root ∉ visited) :
    t.nodesBelow visited (root :: tops) =
      ((t.containment.tree root).unvisited visited).1.labels.filterMap t.node? ++
        t.nodesBelow ((t.containment.tree root).unvisited visited).2 tops := by
  have hlabel : (t.containment.tree root).label = root := Containment.label_treeWithin _ _ root
  rw [nodesBelow, List.map_cons, Tree.unvisitedOf_of_not_mem (by rwa [hlabel]), Tree.labelsOf_cons,
    List.filterMap_append, nodesBelow]

theorem mem_nodes_of_mem_nodesBelow {n : NodeTemplate} (h : n ∈ t.nodesBelow visited tops) :
    n ∈ t.nodes := by
  obtain ⟨id, -, hid⟩ := List.mem_filterMap.1 h
  exact mem_of_node? hid

end Topology

namespace Build

/-- A build checks the plans of some nodes in turn. -/
abbrev ChecksNodes {α : Type} (job : Job) (last : Pass) (ns : List NodeTemplate)
    (good : α → Prop) (x : Build α) : Prop :=
  Checks job.scene last (ns.flatMap job.readings) (fun f => ∃ n ∈ ns, NodeFault job last n f)
    good x

variable {α β : Type} {job : Job} {last : Pass} {ns ms : List NodeTemplate} {good : α → Prop}
  {good' : β → Prop}

theorem ChecksNodes.nil {a : α} (h : good a) : ChecksNodes job last [] good (pure a) :=
  (Checks.pure h).retell (by simp)

theorem ChecksNodes.append {x : Build α} {f : α → Build β} (hx : ChecksNodes job last ns good x)
    (hf : ∀ a, good a → ChecksNodes job last ms good' (f a)) :
    ChecksNodes job last (ns ++ ms) good' (x >>= f) := by
  rw [ChecksNodes, List.flatMap_append]
  refine (hx.bind hf).retell fun f => ?_
  simp only [List.mem_append, or_and_right, exists_or]

mutual

/-- The tree of node plans checks its nodes, the one on top first, and has a plan for each. -/
theorem checks_treeOver {g : Containment} (t : Tree String)
    (h : ∀ id ∈ t.labels, id ∈ job.scene.topology.ids) :
    ChecksNodes job last (t.labels.filterMap job.scene.topology.node?)
      (fun t' => ∀ q ∈ t'.labels,
        job.AssemblesOne last (t.labels.filterMap job.scene.topology.node?) q)
      (treeOver job g t) := by
  match t with
  | .node id below =>
    rw [Tree.labels_node, List.forall_mem_cons] at h
    obtain ⟨n, hn⟩ := Option.isSome_iff_exists.1 ((Topology.has_iff_mem_ids _ id).2 h.1)
    rw [Tree.labels_node, List.filterMap_cons_some hn, treeOver, ← List.singleton_append]
    have hbelow := checks_treesOver (g := g) below h.2
    have hnode : ChecksNodes job last [n] (job.AssemblesOne last [n])
        (nodePlan job id (g.childCount id)) := by
      rw [ChecksNodes, List.flatMap_singleton]
      refine (((checks_nodePlan hn (g.childCount id)).with_result id_of_nodePlan).weaken ?_).retell
        (by simp)
      rintro p ⟨hp, hid⟩
      exact ⟨n, List.mem_singleton_self n, hid.trans (Topology.id_of_node? hn).symm, hp⟩
    refine (hnode.append fun p hp => Checks.andThen hbelow fun children hchildren =>
      Checks.pure ?_).tagged
    rw [Tree.labels_node, List.forall_mem_cons]
    exact ⟨hp.mono (List.subset_append_left _ _),
      fun q hq => (hchildren q hq).mono (List.subset_append_right _ _)⟩

theorem checks_treesOver {g : Containment} (ts : List (Tree String))
    (h : ∀ id ∈ ts.flatMap Tree.labels, id ∈ job.scene.topology.ids) :
    ChecksNodes job last ((ts.flatMap Tree.labels).filterMap job.scene.topology.node?)
      (fun ts' => ∀ q ∈ ts'.flatMap Tree.labels,
        job.AssemblesOne last ((ts.flatMap Tree.labels).filterMap job.scene.topology.node?) q)
      (treesOver job g ts) := by
  match ts with
  | [] =>
    rw [treesOver]
    exact ChecksNodes.nil nofun
  | t :: ts =>
    rw [List.flatMap_cons, List.forall_mem_append] at h
    have hfirst := checks_treeOver (g := g) t h.1
    have hrest := checks_treesOver (g := g) ts h.2
    rw [List.flatMap_cons, List.filterMap_append, treesOver]
    refine hfirst.append fun first hfirst => Checks.andThen hrest fun rest hrest => Checks.pure ?_
    rw [List.flatMap_cons, List.forall_mem_append]
    exact ⟨fun q hq => (hfirst q hq).mono (List.subset_append_left _ _),
      fun q hq => (hrest q hq).mono (List.subset_append_right _ _)⟩

end

/-- One of the nodes has nothing on top, and a loop is reported. -/
def Looped (t : Topology) (ids : List String) (f : Failure) : Prop :=
  (∃ id ∈ ids, t.topmost? id = none) ∧ ∃ chain, f = .compile (.cyclicHost chain) ∧ t.IsLoop chain

theorem looped_cons {t : Topology} {id root : String} (h : t.topmost? id = some root)
    (ids : List String) (f : Failure) : Looped t (id :: ids) f ↔ Looped t ids f := by
  rw [Looped, List.exists_mem_cons_iff, h, Looped]
  simp

/-- A forest checks that its nodes have something on top, and the nodes below that, for each of
which it has a plan. -/
theorem checks_forest {g : Containment} (hg : g.Describes job.scene.topology)
    (htree : g.tree = job.scene.topology.containment.tree) {ids visited : List String}
    (hids : ∀ id ∈ ids, id ∈ job.scene.topology.ids) :
    Checks job.scene last
      ((job.scene.topology.nodesBelow visited
        (ids.filterMap job.scene.topology.topmost?)).flatMap job.readings)
      (fun f => Looped job.scene.topology ids f ∨
        ∃ n ∈ job.scene.topology.nodesBelow visited (ids.filterMap job.scene.topology.topmost?),
          NodeFault job last n f)
      (fun ts => ∀ q ∈ ts.flatMap Tree.labels, job.AssemblesOne last
        (job.scene.topology.nodesBelow visited (ids.filterMap job.scene.topology.topmost?)) q)
      (forest job ids g visited) := by
  induction ids generalizing g visited with
  | nil =>
    exact (Checks.pure nofun).retell
      (by simp [Looped, Topology.nodesBelow, Tree.unvisitedOf, Tree.labelsOf, Tree.subtreesOf])
  | cons id ids ih =>
    rw [List.forall_mem_cons] at hids
    obtain ⟨hid, hids⟩ := hids
    rw [forest_cons]
    generalize hres : g.root id = res
    obtain ⟨found, g'⟩ := res
    have hg' : g'.Describes job.scene.topology := by
      simpa [Containment.after, hres] using hg.after [id]
    have htree' : g'.tree = job.scene.topology.containment.tree := by
      rw [← htree]
      exact Containment.tree_congr (by simpa [hres] using g.ids_root id)
        (by simpa [hres] using g.placements_root id)
    cases found with
    | error f =>
      obtain ⟨chain, rfl, hloop⟩ := hg.root_error hid (by rw [hres])
      have hnone := hg.topmost?_eq_none hid (by rw [hres])
      exact Checks.fail (.inl ⟨⟨id, List.mem_cons_self, hnone⟩, chain, rfl, hloop⟩)
    | ok root =>
      have htop := (hg.root_eq_ok_iff_topmost? hid).1 (by rw [hres])
      have hpure : ofExcept (.ok root : Except Failure String) = pure root := rfl
      simp only [hpure, pure_bind, looped_cons htop, List.filterMap_cons_some htop]
      by_cases hmet : root ∈ visited
      · rw [if_pos hmet, Topology.nodesBelow_of_mem hmet]
        exact ih hg' htree' hids
      · rw [if_neg hmet, Topology.nodesBelow_of_not_mem hmet, ← htree']
        have hend := (hg'.topmost?_eq_some_iff hid).1 htop
        have hlabels (x : String) (hx : x ∈ ((g'.tree root).unvisited visited).1.labels) :
            x ∈ job.scene.topology.ids := by
          obtain ⟨⟨k, hk⟩, -⟩ := hend
          rw [← hg'.ids_eq] at hid ⊢
          exact hg'.mem_ids_of_labels (hg'.mem_ids_of_ascend hid hk)
            (Tree.mem_labels_of_unvisited hx)
        rw [List.flatMap_append]
        refine ((checks_treeOver _ hlabels).bind fun first hfirst =>
          (ih hg' htree' hids).andThen fun rest hrest => Checks.pure ?_).retell fun f => ?_
        · rw [List.flatMap_cons, List.forall_mem_append]
          exact ⟨fun q hq => (hfirst q hq).mono (List.subset_append_left _ _),
            fun q hq => (hrest q hq).mono (List.subset_append_right _ _)⟩
        · simp only [List.mem_append, or_and_right, exists_or]
          exact or_left_comm

/-- A build on the log checks what it checks of every log. -/
theorem checks_onLog {α : Type} {s : Scene} {fault : Failure → Prop} {good : α → Prop}
    {f : Log → Except Failure α × Log}
    (hok : ∀ {log log' a}, f log = (.ok a, log') → good a ∧ ∀ e, ¬ fault e)
    (herror : ∀ {log log' e}, f log = (.error e, log') → fault e) :
    Checks s last [] fault good (onLog f) where
  ok {p p' a rest} hp hrun := by
    unfold onLog at hrun
    generalize hf : f p.log = out at hrun
    obtain ⟨outcome, log⟩ := out
    cases hrun
    exact ⟨⟨hp.rests, hp.ends, hp.memo⟩, hok hf⟩
  error {p p' e rest} hp hrun := by
    unfold onLog at hrun
    generalize hf : f p.log = out at hrun
    obtain ⟨outcome, log⟩ := out
    cases hrun
    exact herror hf

end Build

/-- What is wrong with the topology of a job, and the failure that reports it. `last` is the pass
that resolves the properties of relationships. -/
inductive PlanFault (job : Job) (last : Pass) : Failure → Prop
  /-- A node is placed on one that is not declared. -/
  | host {n : NodeTemplate} {parent : String} (declared : n ∈ job.scene.topology.nodes)
      (placed : n.hostParent? = some parent) (undeclared : parent ∉ job.scene.topology.ids) :
      PlanFault job last (.compile (.nodeNotFound parent (some n.id)))
  /-- A relationship leads to a node that is not declared. -/
  | target {n : NodeTemplate} {r : Relationship} (declared : n ∈ job.scene.topology.nodes)
      (leads : r ∈ n.relationships) (undeclared : r.target ∉ job.scene.topology.ids) :
      PlanFault job last (.compile (.nodeNotFound r.target (some n.id)))
  /-- Nodes are placed on one another in a loop. -/
  | loop {chain : List String} (loops : job.scene.topology.IsLoop chain) :
      PlanFault job last (.compile (.cyclicHost chain))
  /-- Something is wrong with a node. -/
  | node {n : NodeTemplate} {f : Failure} (declared : n ∈ job.scene.topology.nodes)
      (fault : NodeFault job last n f) : PlanFault job last f
  /-- Something is wrong with a group. -/
  | group {g : Group} {f : Failure} (declared : g ∈ job.scene.topology.groups)
      (fault : GroupFault job.scene.topology g f) : PlanFault job last f

/-- Nothing is wrong with a topology when its nodes are placed on declared ones without a loop, lead
to declared ones, and nothing is wrong with its nodes and groups. -/
theorem not_planFault_iff {job : Job} {last : Pass} :
    (∀ f, ¬ PlanFault job last f) ↔
      (∀ n ∈ job.scene.topology.nodes, ∀ parent, n.hostParent? = some parent →
        parent ∈ job.scene.topology.ids) ∧
      (∀ n ∈ job.scene.topology.nodes, ∀ r ∈ n.relationships,
        r.target ∈ job.scene.topology.ids) ∧
      (∀ id, ¬ Relation.TransGen job.scene.topology.PlacedOn id id) ∧
      (∀ n ∈ job.scene.topology.nodes, ∀ f, ¬ NodeFault job last n f) ∧
      ∀ g ∈ job.scene.topology.groups, ∀ f, ¬ GroupFault job.scene.topology g f := by
  constructor
  · intro h
    refine ⟨fun n hn parent hparent => ?_, fun n hn r hr => ?_, fun id hid => ?_,
      fun n hn f hf => h f (.node hn hf), fun g hg f hf => h f (.group hg hf)⟩
    · by_contra hundeclared
      exact h _ (.host hn hparent hundeclared)
    · by_contra hundeclared
      exact h _ (.target hn hr hundeclared)
    · obtain ⟨chain, hchain⟩ := Topology.exists_loop_of_transGen hid
      exact h _ (.loop hchain)
  · rintro ⟨hhosts, htargets, hacyclic, hnodes, hgroups⟩ f hf
    cases hf with
    | host hn hparent hundeclared => exact hundeclared (hhosts _ hn _ hparent)
    | target hn hr hundeclared => exact hundeclared (htargets _ hn _ hr)
    | loop hloop =>
      obtain ⟨x, hx⟩ := hloop.transGen
      exact hacyclic x hx
    | node hn hfault => exact hnodes _ hn _ hfault
    | group hg hfault => exact hgroups _ hg _ hfault

namespace Build

theorem strayTarget?_eq_some {t : Topology} {target source : String}
    (h : strayTarget? t = some (target, source)) :
    ∃ n ∈ t.nodes, ∃ r ∈ n.relationships, r.target ∉ t.ids ∧ target = r.target ∧ source = n.id := by
  obtain ⟨n, hn, hfound⟩ := List.exists_of_findSome?_eq_some h
  obtain ⟨r, hr, heq⟩ := Option.map_eq_some_iff.1 hfound
  cases heq
  refine ⟨n, hn, r, List.mem_of_find?_eq_some hr, ?_, rfl, rfl⟩
  rw [← t.has_iff_mem_ids]
  simpa using List.find?_some hr

theorem target_mem_of_strayTarget? {t : Topology} (h : strayTarget? t = none) {n : NodeTemplate}
    (hn : n ∈ t.nodes) {r : Relationship} (hr : r ∈ n.relationships) : r.target ∈ t.ids := by
  have hnone := List.findSome?_eq_none_iff.1 h n hn
  have hfound := List.find?_eq_none.1 (Option.map_eq_none_iff.1 hnone) r hr
  rw [← t.has_iff_mem_ids]
  simpa using hfound

end Build

namespace Topology

theorem node?_of_mem {t : Topology} (hids : t.ids.Nodup) {n : NodeTemplate} (hn : n ∈ t.nodes) :
    t.node? n.id = some n := by
  obtain ⟨m, hm⟩ := Option.isSome_iff_exists.1
    ((t.has_iff_mem_ids n.id).2 (List.mem_map_of_mem hn))
  rw [hm, List.inj_on_of_nodup_map hids (mem_of_node? hm) hn (id_of_node? hm)]

/-- When every node has something on top, the plans of all nodes are built. -/
theorem mem_buildOrder {t : Topology} (hg : t.containment.Describes t) (hids : t.ids.Nodup)
    (htop : ∀ id ∈ t.ids, t.topmost? id ≠ none) {n : NodeTemplate} (hn : n ∈ t.nodes) :
    n ∈ t.buildOrder := by
  have hlabels : Tree.labelsOf (Tree.unvisitedOf
      ((t.ids.filterMap t.topmost?).map t.containment.tree) []).1 =
        t.rootIds.flatMap fun root => (t.containment.tree root).labels := by
    rw [← unvisitedOf_eraseDups, ← rootIds, unvisitedOf_rootIds hg hids htop,
      Tree.labelsOf_eq_flatMap, List.flatMap_map]
  refine List.mem_filterMap.2 ⟨n.id, ?_, node?_of_mem hids hn⟩
  rw [hlabels, (labels_rootIds_perm hg hids htop).mem_iff]
  exact List.mem_map_of_mem hn

end Topology

namespace Build
variable {job : Job} {last : Pass}

/-- The containment graph is built when all parents are declared. -/
theorem checks_containment :
    Checks job.scene last []
      (fun f => ∃ n ∈ job.scene.topology.nodes, ∃ parent, n.hostParent? = some parent ∧
        parent ∉ job.scene.topology.ids ∧ f = .compile (.nodeNotFound parent (some n.id)))
      (fun g => g = job.scene.topology.containment ∧ g.Describes job.scene.topology)
      (onLog (Containment.build job.scene.topology)) := by
  refine checks_onLog (fun h => ⟨⟨Containment.eq_containment_of_build h,
    Containment.describes_of_build h⟩, ?_⟩) Containment.build_error
  rintro e ⟨n, hn, parent, hp, hundeclared, -⟩
  exact hundeclared (Containment.hostParent?_mem_of_build h hn hp)

theorem checks_checkTargets :
    Checks job.scene last []
      (fun f => ∃ n ∈ job.scene.topology.nodes, ∃ r ∈ n.relationships,
        r.target ∉ job.scene.topology.ids ∧ f = .compile (.nodeNotFound r.target (some n.id)))
      (fun _ => True) (checkTargets job.scene.topology) := by
  unfold checkTargets
  split
  · next target source hstray =>
    obtain ⟨n, hn, r, hr, hundeclared, rfl, rfl⟩ := strayTarget?_eq_some hstray
    exact Checks.fail ⟨n, hn, r, hr, hundeclared, rfl⟩
  · next hnone =>
    refine (Checks.pure trivial).retell fun f => ⟨False.elim, ?_⟩
    rintro ⟨n, hn, r, hr, hundeclared, -⟩
    exact hundeclared (target_mem_of_strayTarget? hnone hn hr)

/-- Decorations leave the properties and the config of node plans alone. -/
theorem assemblesOne_of_decorate {p p' : Plan} {r : Registry} {groups : List Group} {log log' : Log}
    (h : Plan.decorate r groups p log = (.ok p', log'))
    (hp : ∀ q ∈ Tree.labelsOf p.roots, job.AssemblesOne last ns q) :
    ∀ q ∈ Tree.labelsOf p'.roots, job.AssemblesOne last ns q := by
  intro q hq
  have htold := congrArg Tree.labelsOf (Plan.told_of_decorate
    (g := fun q => (q.id, q.values)) ⟨fun _ _ => rfl, fun _ _ => rfl⟩ h)
  rw [Plan.told, Plan.told, Tree.labelsOf_map, Tree.labelsOf_map] at htold
  obtain ⟨q₀, hq₀, heq⟩ := List.mem_map.1 (htold ▸ List.mem_map_of_mem hq)
  obtain ⟨hid, hvalues⟩ := Prod.mk.inj heq
  obtain ⟨n, hn, hidn, hassembles⟩ := hp q₀ hq₀
  exact ⟨n, hn, hid.symm.trans hidn, hassembles.congr hvalues.symm⟩

/-- The forest over all nodes checks that there is no loop, and all nodes below the roots. -/
theorem checks_whole_forest
    (hg : job.scene.topology.containment.Describes job.scene.topology) :
    Checks job.scene last (job.scene.topology.buildOrder.flatMap job.readings)
      (fun f => Looped job.scene.topology job.scene.topology.ids f ∨
        ∃ n ∈ job.scene.topology.buildOrder, NodeFault job last n f)
      (fun ts => ∀ q ∈ ts.flatMap Tree.labels,
        job.AssemblesOne last job.scene.topology.buildOrder q)
      (forest job job.scene.topology.ids job.scene.topology.containment []) :=
  checks_forest hg rfl (List.Subset.refl _)

/-- A plan that is built on the way to a last pass has all that is put on its node plans. -/
theorem assemblesOne_of_plan {p p' : Pass} {plan : Plan} {rest : List PropertyKey}
    (hp : p.Reaches job.scene (job.scene.topology.buildOrder.flatMap job.readings ++ rest) last)
    (h : Build.plan job p = (.ok plan, p')) :
    ∀ q ∈ Tree.labelsOf plan.roots,
      job.AssemblesOne last job.scene.topology.buildOrder q := by
  obtain ⟨g, log, log', ts, q, hbuild, hforest, hdecorate⟩ := plan_steps h
  have hg := Containment.describes_of_build hbuild
  cases Containment.eq_containment_of_build hbuild
  have hlogged : ({ p with log := log } : Pass).Reaches job.scene
      (job.scene.topology.buildOrder.flatMap job.readings ++ rest) last :=
    ⟨hp.rests, hp.ends, hp.memo⟩
  obtain ⟨-, hlabels, -⟩ := (checks_whole_forest hg).ok hlogged hforest
  refine assemblesOne_of_decorate hdecorate ?_
  rw [Tree.labelsOf_eq_flatMap]
  exact hlabels

/-- Groups are the last to be checked, on a plan that has all declared nodes. -/
theorem checks_finish {roots : List PlanTree}
    (hroots : Plan.Covers ⟨job.scene.topology.name, roots, []⟩ job.scene.topology) :
    Checks job.scene last []
      (fun f => ∃ g ∈ job.scene.topology.groups, GroupFault job.scene.topology g f)
      (fun _ => True) (finish job roots) := by
  unfold finish
  refine Checks.andThen (checks_onLog (fun h => ⟨trivial, ?_⟩) fun h => ?_) fun _ _ => ?_
  · rintro e ⟨g, hg, hfault⟩
    exact Plan.decorate_ok hroots h g hg e hfault
  · exact Plan.decorate_error hroots h
  · exact Checks.quiet_bind (Eval.Visits.note ..) fun _ _ _ => Checks.pure trivial

/-- A forest that is built covers the topology. -/
theorem covers_of_forest (hg : job.scene.topology.containment.Describes job.scene.topology)
    (hids : job.scene.topology.ids.Nodup) {p p' : Pass} {ts : List PlanTree}
    (h : forest job job.scene.topology.ids job.scene.topology.containment [] p = (.ok ts, p')) :
    Plan.Covers ⟨job.scene.topology.name, ts, []⟩ job.scene.topology := by
  obtain ⟨htop, hts⟩ := ids_of_forest hg (List.Subset.refl _) h
  intro id
  rw [Plan.idForest, hts, ← Topology.unvisitedOf_eraseDups, ← Topology.rootIds,
    Topology.unvisitedOf_rootIds hg hids htop, Tree.labelsOf_eq_flatMap, List.flatMap_map]
  exact (Topology.labels_rootIds_perm hg hids htop).mem_iff

/-- The faults that a plan is checked for are all that can be wrong: without them the plans of all
nodes are built. -/
theorem not_planFault (hids : job.scene.topology.ids.Nodup)
    (hhosts : ∀ n ∈ job.scene.topology.nodes, ∀ parent, n.hostParent? = some parent →
      parent ∈ job.scene.topology.ids)
    (htargets : ∀ n ∈ job.scene.topology.nodes, ∀ r ∈ n.relationships,
      r.target ∈ job.scene.topology.ids)
    (hloops : ∀ f, ¬ Looped job.scene.topology job.scene.topology.ids f)
    (hnodes : ∀ n ∈ job.scene.topology.buildOrder, ∀ f, ¬ NodeFault job last n f)
    (hgroups : ∀ g ∈ job.scene.topology.groups, ∀ f, ¬ GroupFault job.scene.topology g f) :
    ∀ f, ¬ PlanFault job last f := by
  have hg : job.scene.topology.containment.Describes job.scene.topology := by
    generalize hbuild : Containment.build job.scene.topology last.log = out
    obtain ⟨_ | g, log⟩ := out
    · obtain ⟨n, hn, parent, hparent, hundeclared, -⟩ := Containment.build_error hbuild
      exact absurd (hhosts n hn parent hparent) hundeclared
    · rw [← Containment.eq_containment_of_build hbuild]
      exact Containment.describes_of_build hbuild
  have htop (id : String) (hid : id ∈ job.scene.topology.ids) :
      job.scene.topology.topmost? id ≠ none := by
    intro hnone
    obtain ⟨chain, hchain⟩ := hg.exists_loop hid hnone
    exact hloops _ ⟨⟨id, hid, hnone⟩, chain, rfl, hchain⟩
  refine not_planFault_iff.2 ⟨hhosts, htargets, fun x hx => ?_, fun n hn => ?_, hgroups⟩
  · obtain ⟨hid, hnone⟩ := hg.topmost?_of_transGen hx
    exact htop x hid hnone
  · exact hnodes n (Topology.mem_buildOrder hg hids htop hn)

/-- The plan of a topology fails with what is wrong with the topology only. -/
theorem checks_plan (hids : job.scene.topology.ids.Nodup) :
    Checks job.scene last (job.scene.topology.buildOrder.flatMap job.readings)
      (PlanFault job last) (fun _ => True) (plan job) := by
  rw [plan_eq, ← List.append_nil (job.scene.topology.buildOrder.flatMap job.readings)]
  have hrest (g : Containment)
      (hg : g = job.scene.topology.containment ∧ g.Describes job.scene.topology) :
      Checks job.scene last (job.scene.topology.buildOrder.flatMap job.readings ++ [])
        (fun f => (∃ n ∈ job.scene.topology.nodes, ∃ r ∈ n.relationships,
            r.target ∉ job.scene.topology.ids ∧ f = .compile (.nodeNotFound r.target (some n.id))) ∨
          (Looped job.scene.topology job.scene.topology.ids f ∨
            ∃ n ∈ job.scene.topology.buildOrder, NodeFault job last n f) ∨
          ∃ g ∈ job.scene.topology.groups, GroupFault job.scene.topology g f)
        (fun _ => True)
        (checkTargets job.scene.topology >>= fun _ => forest job g.ids g [] >>= finish job) := by
    obtain ⟨rfl, hg⟩ := hg
    exact checks_checkTargets.bind fun _ _ => ((checks_whole_forest hg).with_result
      fun h => covers_of_forest hg hids h).bind fun _ hts => checks_finish hts.2
  refine (checks_containment.bind hrest).recount ?_ ?_
  · rintro f (⟨n, hn, parent, hparent, hundeclared, rfl⟩ | ⟨n, hn, r, hr, hundeclared, rfl⟩ |
      (⟨-, chain, rfl, hloop⟩ | ⟨n, hn, hfault⟩) | ⟨g, hg, hfault⟩)
    · exact .host hn hparent hundeclared
    · exact .target hn hr hundeclared
    · exact .loop hloop
    · exact .node (Topology.mem_nodes_of_mem_nodesBelow hn) hfault
    · exact .group hg hfault
  · intro hsafe
    simp only [not_or] at hsafe
    refine not_planFault hids (fun n hn parent hparent => ?_) (fun n hn r hr => ?_)
      (fun f => (hsafe f).2.2.1.1) (fun n hn f hf => (hsafe f).2.2.1.2 ⟨n, hn, hf⟩)
      fun g hg f hf => (hsafe f).2.2.2 ⟨g, hg, hf⟩
    · by_contra hundeclared
      exact (hsafe _).1 ⟨n, hn, parent, hparent, hundeclared, rfl⟩
    · by_contra hundeclared
      exact (hsafe _).2.1 ⟨n, hn, r, hr, hundeclared, rfl⟩

end Build

end DeployPlan
