import DeployPlan.Proofs.Compiler.History
import DeployPlan.Proofs.Containment.Topmost

/-!
# The host of a node

Expressions find the topmost host of a node in the topology, the trees of a plan are built below the
roots of the containment graph. Both are the same node: in a plan the keyword for the host stands
for the root of the tree that the node is in.
-/
namespace DeployPlan

/-- In a plan that is built each node ascends to the root of its tree. -/
theorem Build.endsAt_of_plan {job : Job} {q q' : Pass} {p : Plan}
    (hplan : Build.plan job q = (.ok p, q')) (hids : job.scene.topology.ids.Nodup)
    {tree : PlanTree} (htree : tree ∈ p.roots) {n : NodePlan} (hn : n ∈ tree.labels) :
    n.id ∈ job.scene.topology.ids ∧
      job.scene.topology.containment.EndsAt n.id tree.label.id := by
  obtain ⟨hg, htop, -⟩ := plan_ok hplan
  have hmem : Tree.map NodePlan.id tree ∈ p.idForest := List.mem_map_of_mem htree
  rw [idForest_of_plan hplan hids] at hmem
  obtain ⟨root, hroot, heq⟩ := List.mem_map.1 hmem
  have hlabel : tree.label.id = root := by
    rw [← Tree.label_map NodePlan.id, ← heq]
    exact Containment.label_treeWithin _ _ root
  have hid : n.id ∈ (job.scene.topology.containment.tree root).labels := by
    rw [heq, Tree.labels_map]
    exact List.mem_map_of_mem hn
  constructor
  · exact (Topology.labels_rootIds_perm hg hids htop).mem_iff.1
      (List.mem_flatMap.2 ⟨root, hroot, hid⟩)
  · rw [hlabel]
    exact (Containment.mem_labels_tree (hg.toSound.distinct hids)
      ((Topology.mem_rootIds_iff hg).1 hroot).2).1 hid

namespace Topology

variable {t : Topology} {id host : String}

/-- The keyword for the host stands for the topmost node unless that is blank. -/
theorem get?_host_nodeScope (h : t.topmost? id = some host) (hblank : Text.isBlank host = false) :
    (t.nodeScope id).get? hostKeyword = some host := by
  rw [nodeScope, h]
  exact (Scope.get?_bind _ hostKeyword host hostKeyword).trans (if_pos ⟨rfl, hblank⟩)

end Topology

namespace Compiler

/-- The walks of the containment graph and of the topology agree. After any searches, successful or
not, the graph has the parents of the topology; it finds a root for a declared node exactly when the
topology finds that node on top, which has no parent then and is reached by parents; and it fails
with a cycle exactly when the topology finds none. So in a plan that is answered after any
compilations before, the keyword for the host stands for the root of the node's tree. -/
theorem root_agrees_with_topmost {t : Topology} (hids : t.ids.Nodup) :
    (∀ (log log' : Log) (g : Containment), Containment.build t log = (.ok g, log') →
      ∀ calls : List String,
        (∀ id, (g.after calls).parent? id = t.parent? id) ∧
        ∀ id ∈ t.ids,
          (∀ r, ((g.after calls).root id).1 = .ok r ↔ t.topmost? id = some r) ∧
          (∀ r, t.topmost? id = some r →
            t.parent? r = none ∧ ∃ k, (g.after calls).ascend k id = some r) ∧
          ((∃ chain, ((g.after calls).root id).1 = .error (.compile (.cyclicHost chain))) ↔
            t.topmost? id = none)) ∧
    ((∀ id ∈ t.ids, Text.isBlank id = false) →
      ∀ (s : Settings) (envs : List Surroundings) (env : Surroundings) (p : Plan),
        (((start t s).after envs).compile env).1 = .ok p →
        ∀ tree ∈ p.roots, ∀ n ∈ tree.labels,
          (t.nodeScope n.id).get? hostKeyword = some tree.label.id) := by
  constructor
  · intro log log' g hbuild calls
    have hg := (Containment.describes_of_build hbuild).after calls
    refine ⟨hg.parent?_eq, fun id hid => ?_⟩
    have hid' : id ∈ (g.after calls).ids := hg.ids_eq ▸ hid
    have hroot (r : String) : ((g.after calls).root id).1 = .ok r ↔ t.topmost? id = some r :=
      hg.root_eq_ok_iff_topmost? hid
    refine ⟨hroot, fun r hr => ?_, ?_⟩
    · obtain ⟨hreach, hnone⟩ := (hg.topmost?_eq_some_iff hid).1 hr
      exact ⟨by rw [← hg.parent?_eq, hnone], hreach⟩
    · constructor
      · rintro ⟨chain, hchain⟩
        exact hg.topmost?_eq_none hid hchain
      · intro hnone
        cases hfound : ((g.after calls).root id).1 with
        | ok r =>
          rw [(hroot r).1 hfound] at hnone
          cases hnone
        | error f =>
          obtain ⟨chain, rfl⟩ := Containment.root_eq_error hid' hfound
          exact ⟨chain, rfl⟩
  · intro hblank s envs env p hp tree htree n hn
    obtain ⟨env', log, hone⟩ := (((reached_start t s).after envs).compile env).2 p hp
    obtain ⟨job, q, q', rfl, hplan⟩ := plan_of_compileOnce hone
    obtain ⟨hg, -, -⟩ := Build.plan_ok hplan
    obtain ⟨hid, hend⟩ := Build.endsAt_of_plan hplan hids htree hn
    have htop : tree.label.id ∈ job.scene.topology.ids := by
      obtain ⟨⟨k, hk⟩, -⟩ := hend
      exact hg.mem_ids_of_ascend hid hk
    exact Topology.get?_host_nodeScope ((hg.topmost?_eq_some_iff hid).2 hend) (hblank _ htop)

/-- Two nodes that are placed on each other, one that is placed on them, and a stack of three. -/
def loopBesideStack : Topology where
  name := "site"
  nodes := [guest "left" "right", guest "right" "left", guest "tail" "left",
    guest "app" "server", guest "server" "vm",
    ⟨"vm", "Machine", none, none, ∅, [], [], [], []⟩]
  groups := []
  dependencies := []
  archive := none
where
  /-- A node that is placed on another one. -/
  guest (id host : String) : NodeTemplate :=
    ⟨id, "App", none, none, ∅, ["host"], [⟨id ++ "_host", "host", host, hostedOn, ∅, []⟩], [], []⟩

/-- After searches that failed and one that remembered its way, the graph finds no root above the
node that ascends into the cycle, and the top of the stack for the others; and the guests around
their host have it as their host in the plan. -/
theorem root_loopBesideStack : loopBesideStack.ids.Nodup ∧ guestsAround.ids.Nodup ∧
    (∃ g log, Containment.build loopBesideStack (.start .error false) = (.ok g, log) ∧
      (∃ chain, ((g.after ["tail", "app", "left"]).root "tail").1 =
        .error (.compile (.cyclicHost chain))) ∧
      ((g.after ["tail", "app", "left"]).root "server").1 = .ok "vm") ∧
    ∃ p, ((start guestsAround (.initial ⟨none, none⟩)).compile bareSurroundings).1 = .ok p ∧
      ∀ tree ∈ p.roots, ∀ n ∈ tree.labels,
        (guestsAround.nodeScope n.id).get? hostKeyword = some tree.label.id := by
  have hloop : loopBesideStack.ids.Nodup := by decide +kernel
  have hguests : guestsAround.ids.Nodup := by decide
  refine ⟨hloop, hguests, ?_, ?_⟩
  · obtain ⟨g, log, hbuild⟩ : ∃ g log,
        Containment.build loopBesideStack (.start .error false) = (.ok g, log) := by
      have hok : (Containment.build loopBesideStack (.start .error false)).1.isOk = true := by
        decide +kernel
      obtain ⟨g, hg⟩ := exists_ok_of_isOk hok
      exact ⟨g, _, Prod.ext hg rfl⟩
    obtain ⟨-, hwalks⟩ :=
      (root_agrees_with_topmost hloop).1 _ _ g hbuild ["tail", "app", "left"]
    refine ⟨g, log, hbuild, ?_, ?_⟩
    · exact (hwalks "tail" (by decide +kernel)).2.2.2 (by decide +kernel)
    · exact ((hwalks "server" (by decide +kernel)).1 "vm").2 (by decide +kernel)
  · have hok : ((start guestsAround (.initial ⟨none, none⟩)).compile
        bareSurroundings).1.isOk = true := by
      decide +kernel
    obtain ⟨p, hp⟩ := exists_ok_of_isOk hok
    exact ⟨p, hp, (root_agrees_with_topmost hguests).2 (by decide +kernel) _ [] _ p hp⟩

end Compiler

end DeployPlan
