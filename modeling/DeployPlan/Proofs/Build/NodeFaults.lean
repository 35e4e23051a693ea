import DeployPlan.Proofs.Build.Assembly
import DeployPlan.Proofs.Build.Checks

/-!
# What can be wrong with a node

The plan of a node fails when the factory that is to make its implementation does, when one of its
relationships is to write a value under no name, or when a script that contributes to its commands
cannot be read; and in no other case.
-/
namespace DeployPlan

/-- The text of a property of a relationship that starts from a node, as a pass resolves it. -/
def Job.edgeText (job : Job) (last : Pass) (n : NodeTemplate) (r : Relationship) (name : String) :
    String :=
  (Build.edgeProperty job (job.scene.topology.relationshipScope n.id r) r name last).1.literalText

/-- What is wrong with a node, and the failure that reports it. `last` is the pass that resolves the
properties of its relationships. -/
inductive NodeFault (job : Job) (last : Pass) (n : NodeTemplate) : Failure → Prop
  /-- The factory that is to make the implementation fails. -/
  | factory {m : Maker} {f : Failure} (made : job.maker? n = some m)
      (fails : m.factory n = .error f) :
      NodeFault job last n (.within s!"{m.label} failed for node {n.id}" f)
  /-- A relationship is to write a value, but neither names where. -/
  | unnamed {r : Relationship} (injects : r ∈ Build.injecting job n)
      (name : Text.isBlank (job.edgeText last n r "prop.name") = true)
      (collection : Text.isBlank (job.edgeText last n r "prop.collection") = true) :
      NodeFault job last n
        (.compile (.invalidRelationship n.id r.id "prop.name or prop.collection must be set"))
  /-- A script that contributes to a command cannot be read. -/
  | script {c : Contributor} {f : Failure} (scripted : job.scripted n = true)
      (contributes : c ∈ Contributor.all job n) (unread : job.script c.artifact = .error f) :
      NodeFault job last n (.compile (.artifactNotFound n.id c.artifact.reference f.text))

/-- Nothing is wrong with a node when its implementation is made, its relationships name where they
write, and the scripts that contribute to its commands can be read if it is scripted. -/
theorem not_nodeFault_iff {job : Job} {last : Pass} {n : NodeTemplate} :
    (∀ f, ¬ NodeFault job last n f) ↔
      (∀ m, job.maker? n = some m → ∃ i, m.factory n = .ok i) ∧
      (∀ r ∈ Build.injecting job n, Text.isBlank (job.edgeText last n r "prop.name") = false ∨
        Text.isBlank (job.edgeText last n r "prop.collection") = false) ∧
      (job.scripted n = true →
        ∀ c ∈ Contributor.all job n, ∃ body, job.script c.artifact = .ok body) := by
  simp only [exists_ok_iff]
  constructor
  · intro h
    refine ⟨fun m hm f hf => h _ (.factory hm hf), fun r hr => ?_,
      fun hs c hc f hf => h _ (.script hs hc hf)⟩
    by_contra hnone
    rw [not_or, Bool.not_eq_false, Bool.not_eq_false] at hnone
    exact h _ (.unnamed hr hnone.1 hnone.2)
  · rintro ⟨hfactory, hnamed, hscripts⟩ f hf
    cases hf with
    | factory hm hfails => exact hfactory _ hm _ hfails
    | unnamed hr hname hcollection =>
      rcases hnamed _ hr with h | h
      · exact Bool.false_ne_true (h.symm.trans hname)
      · exact Bool.false_ne_true (h.symm.trans hcollection)
    | script hs hc hunread => exact hscripts hs _ hc _ hunread

/-- The properties that the plan of a node reads, in order. -/
def Job.readings (job : Job) (n : NodeTemplate) : List PropertyKey :=
  (job.queries n).flatMap (Query.keys job.scene)

/-- A script of one of the contributors to the commands of a node cannot be read. -/
def Contributor.Unread (job : Job) (id : String) (cs : List Contributor) (f : Failure) : Prop :=
  ∃ c ∈ cs, ∃ g, job.script c.artifact = .error g ∧
    f = .compile (.artifactNotFound id c.artifact.reference g.text)

namespace Build

variable {job : Job} {last : Pass} {n : NodeTemplate} {p : NodePlan} {id : String}

/-- Choosing an implementation reads nothing, and settles whether the node is scripted. -/
theorem checks_select (job : Job) (last : Pass) (n : NodeTemplate) (children : Nat) :
    Checks job.scene last [] (job.choose n children = .error ·) (job.Selects n)
      (select job n children) := by
  unfold select
  refine (Checks.ofExcept (job.choose n children)).andThen ?_
  rintro ⟨kind, i⟩ hkind
  refine Checks.quiet_bind (Eval.Visits.note ..) fun _ _ _ => Checks.pure ?_
  exact ⟨Job.scripted_of_choose hkind, i, Job.implementation?_of_choose hkind,
    fun key => (NodePlan.Holds.start kind i key).congr rfl⟩

theorem injection?_eq_none_iff {name collection : String} {value : Json} :
    injection? name collection value = none ↔
      Text.isBlank name = true ∧ Text.isBlank collection = true := by
  unfold injection?
  by_cases hc : Text.isBlank collection = true <;> by_cases hn : Text.isBlank name = true <;>
    simp [hc, hn]

/-- A relationship is to write a value under no name. -/
def Unnamed (job : Job) (last : Pass) (n : NodeTemplate) (r : Relationship) (f : Failure) : Prop :=
  Text.isBlank (job.edgeText last n r "prop.name") = true ∧
    Text.isBlank (job.edgeText last n r "prop.collection") = true ∧
    f = .compile (.invalidRelationship n.id r.id "prop.name or prop.collection must be set")

theorem checks_injectedBy (job : Job) (last : Pass) (n : NodeTemplate) (r : Relationship) :
    Checks job.scene last ((job.edgeQueries n r).flatMap (Query.keys job.scene))
      (Unnamed job last n r) (fun entry => job.injected? last n r = some entry)
      (injectedBy job n r) := by
  have hkeys : (job.edgeQueries n r).flatMap (Query.keys job.scene) =
      ["prop.name", "prop.collection", "prop.value"].flatMap fun name =>
        (r.properties[name]?.map (Query.value (job.scene.topology.relationshipScope n.id
          r))).toList.flatMap (Query.keys job.scene) := by
    rw [Job.edgeQueries, List.filterMap_eq_flatMap_toList, List.flatMap_assoc]
  rw [hkeys]
  simp only [List.flatMap_cons, List.flatMap_nil]
  unfold injectedBy
  refine Checks.eval_bind (visits_edgeProperty ..) fun name hname _ => ?_
  refine Checks.eval_bind (visits_edgeProperty ..) fun collection hcollection _ => ?_
  refine Checks.eval_bind (visits_edgeProperty ..) fun value hvalue _ => ?_
  have hinjected : injection? name.literalText collection.literalText
      ((PlanValue.ofResolution? value).getD (.ofText "")).json = job.injected? last n r := by
    rw [hname, hcollection, hvalue]
    rfl
  dsimp only
  rw [hinjected]
  split
  · next entry hentry =>
    refine Checks.retell (Checks.pure hentry) fun f => ⟨False.elim, fun hf => ?_⟩
    have hnone : job.injected? last n r = none := injection?_eq_none_iff.2 ⟨hf.1, hf.2.1⟩
    rw [hnone] at hentry
    cases hentry
  · next hnone =>
    obtain ⟨hname, hcollection⟩ := injection?_eq_none_iff.1 hnone
    exact Checks.fail ⟨hname, hcollection, rfl⟩

/-- Runs that each give what a partial function gives. -/
theorem filterMap_of_forall₂ {α β : Type} {f : α → Option β} {as : List α} {bs : List β}
    (h : List.Forall₂ (fun a b => f a = some b) as bs) :
    as.filterMap f = bs ∧ ∀ a ∈ as, (f a).isSome := by
  induction h with
  | nil => exact ⟨rfl, nofun⟩
  | cons hab _ ih =>
    refine ⟨by rw [List.filterMap_cons_some hab, ih.1], List.forall_mem_cons.2 ⟨?_, ih.2⟩⟩
    rw [hab, Option.isSome_some]

/-- What relationships write is put on a plan if each of them names where. -/
theorem checks_putInjected (job : Job) (last : Pass) (n : NodeTemplate) (p : NodePlan) :
    Checks job.scene last
      (((injecting job n).flatMap (job.edgeQueries n)).flatMap (Query.keys job.scene))
      (fun f => ∃ r ∈ injecting job n, Unnamed job last n r f)
      (fun p' => p' = p.putEntries (job.injectedEntries last n) ∧
        ∀ r ∈ injecting job n, (job.injected? last n r).isSome) (putInjected job n p) := by
  rw [List.flatMap_assoc]
  unfold putInjected
  refine (Checks.mapM fun r _ => checks_injectedBy job last n r).andThen fun entries h => ?_
  obtain ⟨hentries, hwritten⟩ := filterMap_of_forall₂ h
  exact Checks.pure ⟨congrArg p.putEntries hentries.symm, hwritten⟩

/-- The scripts of contributors are read in turn. -/
theorem checks_gather {α : Type} {f : α → Build (List Contribution)}
    {contributors : α → List Contributor}
    (hf : ∀ a, Checks job.scene last ((contributors a).flatMap (Contributor.reads job.scene))
      (Contributor.Unread job id (contributors a)) (fun _ => True) (f a)) (sources : List α) :
    Checks job.scene last
      ((sources.flatMap contributors).flatMap (Contributor.reads job.scene))
      (Contributor.Unread job id (sources.flatMap contributors)) (fun _ => True)
      (gather f sources) := by
  rw [List.flatMap_assoc]
  unfold gather
  refine ((Checks.mapM fun a _ => hf a).andThen fun _ _ => Checks.pure trivial).retell fun e => ?_
  simp only [Contributor.Unread, List.mem_flatMap]
  constructor
  · rintro ⟨a, ha, c, hc, hunread⟩
    exact ⟨c, ⟨a, ha, hc⟩, hunread⟩
  · rintro ⟨c, ⟨a, ha, hc⟩, hunread⟩
    exact ⟨a, ha, c, hc, hunread⟩

theorem checks_loadScript (job : Job) (last : Pass) (id : String) (a : Artifact) :
    Checks job.scene last []
      (fun f => ∃ g, job.script a = .error g ∧
        f = .compile (.artifactNotFound id a.reference g.text))
      (fun _ => True) (loadScript job id a) := by
  unfold loadScript
  cases job.script a with
  | ok body => exact (Checks.pure trivial).retell (by simp)
  | error g => exact Checks.fail ⟨g, rfl, rfl⟩

theorem checks_noted (job : Job) (last : Pass) (id : String) (level : Level) (message : String)
    (data : Fields) :
    Checks job.scene last [] (Contributor.Unread job id []) (fun _ => True)
      (Eval.note level message data >>= fun _ => pure ([] : List Contribution) : Build _) :=
  (Checks.quiet_bind (Eval.Visits.note ..) fun _ _ _ => Checks.pure trivial).retell
    (by simp [Contributor.Unread])

theorem checks_contribution (job : Job) (last : Pass) (id : String) (scope : Scope)
    (slot : CommandSlot) (op : Operation) :
    Checks job.scene last
      ((Contributor.ofOperation? (some slot) scope op).toList.flatMap (Contributor.reads job.scene))
      (Contributor.Unread job id (Contributor.ofOperation? (some slot) scope op).toList)
      (fun _ => True) (contribution job id scope slot op) := by
  unfold contribution operationScript?
  cases himp : op.implementation with
  | none =>
    have hnone : Contributor.ofOperation? (some slot) scope op = none := by
      simp [Contributor.ofOperation?, himp]
    rw [hnone]
    exact checks_noted ..
  | some a =>
    by_cases href : a.hasReference = true
    · have hsome : Contributor.ofOperation? (some slot) scope op =
          some ⟨slot, scope, op.inputs, a⟩ := by
        simp [Contributor.ofOperation?, himp, href]
      rw [hsome, Option.toList_some, List.flatMap_singleton, Contributor.reads]
      simp only [href, if_true, bind_assoc, pure_bind]
      refine ((checks_loadScript job last id a).readOn fun body _ => ?_).retell fun f => ?_
      · exact Checks.eval_andThen (Eval.visits_pushExports ..) fun _ _ _ => Checks.pure trivial
      · simp [Contributor.Unread]
    · have hnone : Contributor.ofOperation? (some slot) scope op = none := by
        simp [Contributor.ofOperation?, himp, href]
      rw [hnone]
      simp only [href]
      exact checks_noted ..

theorem checks_own (job : Job) (last : Pass) (n : NodeTemplate) (op : Operation) :
    Checks job.scene last
      ((Contributor.ofOperation? (nodeStage? op.name) (job.scene.topology.nodeScope n.id)
        op).toList.flatMap (Contributor.reads job.scene))
      (Contributor.Unread job n.id (Contributor.ofOperation? (nodeStage? op.name)
        (job.scene.topology.nodeScope n.id) op).toList)
      (fun _ => True) (ownContribution job n op) := by
  unfold ownContribution
  cases nodeStage? op.name with
  | none => exact checks_noted ..
  | some slot => exact checks_contribution ..

theorem checks_edge (job : Job) (last : Pass) (id source : String) (r : Relationship)
    (atEnd : RelationshipEnd) (op : Operation) :
    Checks job.scene last
      ((Contributor.ofOperation? (atEnd.stage? op.name)
        (job.scene.topology.relationshipScope source r) op).toList.flatMap
          (Contributor.reads job.scene))
      (Contributor.Unread job id (Contributor.ofOperation? (atEnd.stage? op.name)
        (job.scene.topology.relationshipScope source r) op).toList)
      (fun _ => True) (edgeContribution job id source r atEnd op) := by
  unfold edgeContribution
  cases atEnd.stage? op.name with
  | some slot => exact checks_contribution ..
  | none =>
    by_cases hother : (atEnd.across.stage? op.name).isNone = true
    · simp only [hother, if_true]
      exact checks_noted ..
    · simp only [hother]
      exact (Checks.pure trivial).retell (by simp [Contributor.Unread, Contributor.ofOperation?])

theorem checks_ofEdge (job : Job) (last : Pass) (id : String) (atEnd : RelationshipEnd)
    (edge : String × Relationship) :
    Checks job.scene last
      ((Contributor.ofEdge job atEnd edge).flatMap (Contributor.reads job.scene))
      (Contributor.Unread job id (Contributor.ofEdge job atEnd edge)) (fun _ => True)
      (edgeContributions job id atEnd edge) := by
  rw [Contributor.ofEdge, List.filterMap_eq_flatMap_toList]
  exact checks_gather (checks_edge job last id edge.1 edge.2 atEnd) _

/-- The commands of a node are put on its plan if the scripts of all contributors can be read. -/
theorem checks_putCommands (job : Job) (last : Pass) (n : NodeTemplate) (p : NodePlan) :
    Checks job.scene last ((job.inputQueries n).flatMap (Query.keys job.scene))
      (Contributor.Unread job n.id (Contributor.all job n)) (fun p' => p'.values = p.values)
      (putCommands job n p) := by
  have hown : Checks job.scene last
      ((Contributor.own job n).flatMap (Contributor.reads job.scene))
      (Contributor.Unread job n.id (Contributor.own job n)) (fun _ => True)
      (gather (ownContribution job n) (ownOperations job n)) := by
    rw [Contributor.own, List.filterMap_eq_flatMap_toList]
    exact checks_gather (checks_own job last n) _
  have houtgoing := checks_gather (checks_ofEdge job last n.id .source)
    (n.relationships.map fun r => (n.id, r))
  have harriving := checks_gather (checks_ofEdge job last n.id .target)
    (incoming job.scene.topology n.id)
  have hkeys : (job.inputQueries n).flatMap (Query.keys job.scene) =
      (Contributor.own job n).flatMap (Contributor.reads job.scene) ++
        (((n.relationships.map fun r => (n.id, r)).flatMap
          (Contributor.ofEdge job .source)).flatMap (Contributor.reads job.scene) ++
        ((incoming job.scene.topology n.id).flatMap
          (Contributor.ofEdge job .target)).flatMap (Contributor.reads job.scene)) := by
    have hreads (c : Contributor) :
        (c.inputs.map fun input => Query.value c.scope input.2).flatMap (Query.keys job.scene) =
          c.reads job.scene := by
      rw [List.flatMap_map]
      rfl
    simp only [Job.inputQueries, List.flatMap_assoc, hreads, Contributor.all, List.flatMap_append,
      List.append_assoc]
  rw [hkeys]
  unfold putCommands contributions
  simp only [bind_assoc, pure_bind]
  refine (hown.bind fun own _ => houtgoing.bind fun outgoing _ =>
    harriving.andThen fun arriving _ => Checks.pure ?_).retell fun f => ?_
  · rw [NodePlan.values_setCommands, NodePlan.values_setIdle]
  simp only [Contributor.Unread, Contributor.all, List.mem_append, or_and_right, exists_or,
    or_assoc]

/-- Completing a plan puts all properties and config of its node on it. -/
theorem checks_complete (job : Job) (last : Pass) (n : NodeTemplate) {p : NodePlan}
    (hp : job.Selects n p) :
    Checks job.scene last (job.readings n)
      (fun f => (∃ r ∈ injecting job n, Unnamed job last n r f) ∨
        job.scripted n = true ∧ Contributor.Unread job n.id (Contributor.all job n) f)
      (job.Assembles last n) (complete job n p) := by
  have hkeys : job.readings n = Query.keys job.scene (.properties n.id) ++
      (((injecting job n).flatMap (job.edgeQueries n)).flatMap (Query.keys job.scene) ++
        (if job.scripted n then job.attributeQueries n ++ job.inputQueries n else []).flatMap
          (Query.keys job.scene)) := by
    rw [Job.readings, Job.queries, List.flatMap_append, List.flatMap_cons, List.append_assoc]
  rw [hkeys]
  unfold complete
  refine Checks.eval_bind (visits_putProperties job n p) fun p₁ _ hp₁ => ?_
  subst hp₁
  refine (checks_putInjected job last n _).bind fun p₂ hp₂ => ?_
  obtain ⟨rfl, hwritten⟩ := hp₂
  have hassembles := hp.assembles hwritten
  rw [NodePlan.scripted_putEntries, scripted_putProvisioning, NodePlan.scripted_putEntries,
    NodePlan.scripted_putProperties, hp.scripted]
  by_cases hn : job.scripted n = true
  · simp only [hn, if_true, true_and]
    rw [List.flatMap_append]
    unfold putScripted
    obtain ⟨e, he⟩ := visits_putRuntime job [] n _
    refine Checks.quiet_bind he fun p₃ _ hp₃ => ?_
    obtain ⟨value, hvalue, hvalues⟩ := visits_putAttributes job [] n p₃
    refine Checks.eval_bind hvalue fun p₄ _ hp₄ => ?_
    have hkept : job.Assembles last n p₄ := by
      refine Job.Assembles.congr (Job.Assembles.congr hassembles ?_) (hp₄ ▸ hvalues _)
      rw [hp₃]
      rfl
    exact (checks_putCommands job last n p₄).weaken fun p' hp' => hkept.congr hp'
  · simp only [hn]
    exact (Checks.pure hassembles).retell fun f => by simp

/-- The plan of a declared node fails with the faults of the node only, and has all that is put on
it. -/
theorem checks_nodePlan {id : String} (hn : job.scene.topology.node? id = some n) (children : Nat) :
    Checks job.scene last (job.readings n) (NodeFault job last n) (job.Assembles last n)
      (nodePlan job id children) := by
  rw [nodePlan_eq, template_of_some hn, pure_bind]
  refine ((checks_select job last n children).bind fun p hp =>
    checks_complete job last n hp).retell fun f => ?_
  rw [Job.choose_eq_error_iff]
  constructor
  · rintro (⟨m, g, hm, hg, rfl⟩ | ⟨r, hr, hname, hcollection, rfl⟩ | ⟨hs, c, hc, g, hg, rfl⟩)
    · exact .factory hm hg
    · exact .unnamed hr hname hcollection
    · exact .script hs hc hg
  · rintro (⟨hm, hg⟩ | ⟨hr, hname, hcollection⟩ | ⟨hs, hc, hg⟩)
    · exact .inl ⟨_, _, hm, hg, rfl⟩
    · exact .inr (.inl ⟨_, hr, hname, hcollection, rfl⟩)
    · exact .inr (.inr ⟨hs, _, hc, _, hg, rfl⟩)

end Build

end DeployPlan
