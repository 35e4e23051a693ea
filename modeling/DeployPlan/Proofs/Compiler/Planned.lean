import DeployPlan.Proofs.Compiler.Failure
import DeployPlan.Proofs.Compiler.Reports
import DeployPlan.Proofs.Plan.Decoration

/-!
# Plans of compiled nodes

Every node of a plan that a compiler answers was planned by itself, for as many nodes as the
containment graph places on it, in the surroundings of one call. Its decorations came later.
-/
namespace DeployPlan

/-- A node plan without its decorations. -/
def NodePlan.undecorated (p : NodePlan) : NodePlan := { p with locations := [], behaviors := [] }

namespace Job

/-- A node was planned for the nodes that the containment graph places on it. -/
def Planned (job : Job) (n : NodePlan) : Prop :=
  ∃ p q q', Build.nodePlan job n.id (job.scene.topology.containment.childCount n.id) q =
    (.ok p, q') ∧ n.undecorated = p.undecorated

theorem Planned.congr {job : Job} {n n' : NodePlan} (h : job.Planned n)
    (heq : n'.undecorated = n.undecorated) : job.Planned n' := by
  obtain ⟨p, q, q', hrun, hsame⟩ := h
  have hid := congrArg NodePlan.id heq
  change n'.id = n.id at hid
  exact ⟨p, q, q', by rw [hid, hrun], heq.trans hsame⟩

end Job

namespace Build

variable {job : Job} {g : Containment}

mutual

/-- All nodes of a tree that is built were planned for the nodes that the graph places on them. -/
theorem planned_of_treeOver (hg : g.placements = job.scene.topology.placements)
    {ids : Tree String} {p p' : Pass} {t : PlanTree} (h : treeOver job g ids p = (.ok t, p')) :
    ∀ n ∈ t.labels, job.Planned n := by
  match ids with
  | .node id below =>
    rw [treeOver] at h
    obtain ⟨q, q', h⟩ := tagged_eq_ok h
    obtain ⟨n, q₁, hn, h⟩ := bind_eq_ok h
    obtain ⟨children, q₂, hc, h⟩ := bind_eq_ok h
    cases h
    have hcount : job.scene.topology.containment.childCount id = g.childCount id := by
      rw [Containment.childCount, Containment.childCount, Containment.children,
        Containment.children, hg, Topology.containment]
    rw [Tree.labels_node, ← Tree.labelsOf_eq_flatMap, List.forall_mem_cons]
    refine ⟨⟨n, q, q₁, ?_, rfl⟩, planned_of_treesOver hg hc⟩
    rw [id_of_nodePlan hn, hcount, hn]

theorem planned_of_treesOver (hg : g.placements = job.scene.topology.placements)
    {ids : List (Tree String)} {p p' : Pass} {ts : List PlanTree}
    (h : treesOver job g ids p = (.ok ts, p')) : ∀ n ∈ Tree.labelsOf ts, job.Planned n := by
  match ids with
  | [] =>
    rw [treesOver] at h
    cases h
    exact List.forall_mem_nil _
  | id :: ids =>
    rw [treesOver] at h
    obtain ⟨first, q₁, hf, h⟩ := bind_eq_ok h
    obtain ⟨rest, q₂, hr, h⟩ := bind_eq_ok h
    cases h
    rw [Tree.labelsOf_cons, List.forall_mem_append]
    exact ⟨planned_of_treeOver hg hf, planned_of_treesOver hg hr⟩

end

theorem planned_of_forest (hg : g.placements = job.scene.topology.placements)
    {ids visited : List String} {p p' : Pass} {ts : List PlanTree}
    (h : forest job ids g visited p = (.ok ts, p')) : ∀ n ∈ Tree.labelsOf ts, job.Planned n := by
  induction ids generalizing g visited p ts with
  | nil =>
    cases h
    exact List.forall_mem_nil _
  | cons id ids ih =>
    rw [forest_cons] at h
    obtain ⟨root, q₁, -, h⟩ := bind_eq_ok h
    have hg' : (g.root id).2.placements = job.scene.topology.placements :=
      (g.placements_root id).trans hg
    split at h
    · exact ih hg' h
    · obtain ⟨first, q₂, hfirst, h⟩ := bind_eq_ok h
      obtain ⟨rest, q₃, hrest, h⟩ := bind_eq_ok h
      cases h
      rw [Tree.labelsOf_cons, List.forall_mem_append]
      exact ⟨planned_of_treeOver hg' hfirst, ih hg' hrest⟩

theorem planned_of_plan {p p' : Pass} {plan : Plan} (h : Build.plan job p = (.ok plan, p')) :
    ∀ n ∈ Tree.labelsOf plan.roots, job.Planned n := by
  obtain ⟨g, log, log', ts, q, hbuild, hforest, hdecorate⟩ := plan_steps h
  have htold := congrArg Tree.labelsOf (Plan.told_of_decorate (g := NodePlan.undecorated)
    ⟨fun _ _ => rfl, fun _ _ => rfl⟩ hdecorate)
  rw [Plan.told, Plan.told, Tree.labelsOf_map, Tree.labelsOf_map] at htold
  intro n hn
  obtain ⟨n', hn', heq⟩ := List.mem_map.1 (htold ▸ List.mem_map_of_mem hn)
  exact (planned_of_forest (Containment.build_ok hbuild).2.1 hforest n' hn').congr heq.symm

end Build

namespace Compiler

variable {s : Settings} {t : Topology} {c : Compiler} {env : Surroundings}
  {envs : List Surroundings} {p : Plan}

/-- A plan that is kept after some calls was kept before, or one of them has compiled it. -/
theorem compiled_after (h : (c.after envs).compiled = some p) :
    c.compiled = some p ∨ ∃ env ∈ envs, (compileOnce c.settings env c.topology).1 = .ok p := by
  induction envs generalizing c with
  | nil => exact .inl h
  | cons env envs ih =>
    obtain ⟨htopology, hsettings⟩ := compile_keeps c env
    rcases ih h with hkept | ⟨later, hlater, hcompile⟩
    · rw [compiled_compile] at hkept
      cases hcompiled : c.compiled with
      | some kept =>
        rw [compile_of_compiled hcompiled] at hkept
        exact .inl hkept
      | none =>
        rw [compile_of_not_compiled hcompiled] at hkept
        exact .inr ⟨env, List.mem_cons_self, eq_ok_of_toOption hkept⟩
    · rw [hsettings, htopology] at hcompile
      exact .inr ⟨later, List.mem_cons_of_mem env hlater, hcompile⟩

/-- A plan that is answered after some calls was compiled in the surroundings of one of them. -/
theorem exists_compileOnce (h : (((start t s).after envs).compile env).1 = .ok p) :
    ∃ env' ∈ envs ++ [env], (compileOnce s env' t).1 = .ok p := by
  have hafter : ((start t s).after (envs ++ [env])).compiled = some p := by
    rw [after, List.foldl_append, List.foldl_cons, List.foldl_nil, compiled_compile]
    exact congrArg Except.toOption h
  rcases compiled_after hafter with hstart | hcompile
  · cases hstart
  · exact hcompile

/-- A plan that is answered was built in the surroundings of one call, in which all types that are
used could be looked up. -/
theorem plan_of_compile (h : (((start t s).after envs).compile env).1 = .ok p) :
    ∃ env' ∈ envs ++ [env],
      (∀ name ∈ Scene.usedTypes t, ∃ profile, env'.types name t.dependencies = .ok profile) ∧
      ∃ pass pass', Build.plan (Job.of s env' t) pass = (.ok p, pass') := by
  obtain ⟨env', henv', hcompile⟩ := exists_compileOnce h
  generalize hscene : Scene.build env'.types t s.logging.start = out
  obtain ⟨f | scene, log⟩ := out
  · rw [compileOnce_of_build_error hscene] at hcompile
    cases hcompile
  obtain ⟨rfl, htypes⟩ := Scene.build_ok hscene
  rw [compileOnce_of_build_ok hscene, reported_fst] at hcompile
  exact ⟨env', henv', htypes, Build.tagged_eq_ok (Prod.ext hcompile rfl :
    Build.taggedPlan (Job.of s env' t) (Pass.start log) = (.ok p, _))⟩

end Compiler

end DeployPlan
