import DeployPlan.Proofs.Build.Notes

/-!
# The parts of a compilation

A compilation looks up types, builds the containment of nodes, builds the plan of one node after
another, decorates groups and completes. A build that also tells at which of these parts it is
attributes to each part what the log captures meanwhile. It is the same build; what is captured
during a part has the tags of that part, and all tags are dropped in the end.
-/
namespace DeployPlan

/-- The parts of a compilation. A failure is reported last. -/
inductive Part where
  | types
  | graph
  | node (id : String)
  | groups
  | completion
  | failure
deriving DecidableEq, Repr

/-- The tags of what a part records. -/
def Part.tags : Part → Fields
  | .types => []
  | .graph => Build.passTags
  | .node id => Build.passTags ++ Build.nodeTags id
  | .groups => Build.passTags
  | .completion => Build.passTags
  | .failure => []

/-- Over no other tags, the tags of a part are just these. -/
theorem Part.putAll_tags (which : Part) : Entries.putAll [] which.tags = which.tags := by
  cases which <;> rfl

/-- A part of a compilation, and the log before and after it. -/
structure Stretch where
  part : Part
  before : Log
  after : Log

namespace Stretch

/-- What the log captures during a stretch. -/
def captured (st : Stretch) : List LogEntry :=
  st.after.captured.drop st.before.captured.length

/-- All that is captured but the notice has the tags of the part, put over outer ones. Nothing but a
failure is at the gravest level. -/
def IsTagged (outer : Fields) (st : Stretch) : Prop :=
  ∀ e ∈ st.captured, e = Log.truncationNotice ∨
    e.tags = Entries.putAll outer st.part.tags ∧ (e.level = .error → st.part = .failure)

theorem captured_eq {part : Part} {before after : Log} {es : List LogEntry}
    (h : after.captured = before.captured ++ es) : captured ⟨part, before, after⟩ = es := by
  rw [captured, h, List.drop_left]

end Stretch

/-- A pass and the stretches that its log has gone through. -/
structure Chronicle where
  pass : Pass
  stretches : List Stretch

/-- Builds that tell at which part they are. -/
abbrev Chronicled := ExceptT Failure (StateM Chronicle)

namespace Chronicled

variable {α : Type}

/-- A build that is one part of a compilation. -/
def part (which : Part) (build : Build α) : Chronicled α := fun c =>
  match build c.pass with
  | (outcome, p) => (outcome, ⟨p, c.stretches ++ [⟨which, c.pass.log, p.log⟩]⟩)

/-- A build that leaves the log alone. -/
def silent (build : Build α) : Chronicled α := fun c =>
  match build c.pass with
  | (outcome, p) => (outcome, { c with pass := p })

/-- A build with tags in force, dropped when it ends. -/
def tagged (tags : Fields) (build : Chronicled α) : Chronicled α := fun c =>
  match c.pass.log.pushTags tags with
  | (false, log) => build { c with pass.log := log }
  | (true, log) =>
    match build { c with pass.log := log } with
    | (outcome, c') => (outcome, { c' with pass.log := c'.pass.log.popTags })

mutual

/-- The tree of node plans over a tree of ids, and the nodes met then. Each node's own plan is a
part. -/
def tree (job : Job) (g : Containment) :
    Tree String → List String → Chronicled (PlanTree × List String)
  | .node id below, visited =>
    tagged (Build.nodeTags id) do
      let p ← part (.node id) (Build.nodePlan job id (g.childCount id))
      let (children, visited) ← trees job g below (id :: visited)
      return (.node p children, visited)

/-- The trees of node plans over trees of ids in turn, those of nodes met before left out. -/
def trees (job : Job) (g : Containment) :
    List (Tree String) → List String → Chronicled (List PlanTree × List String)
  | [], visited => return ([], visited)
  | t :: ts, visited =>
    if visited.contains t.label then trees job g ts visited
    else do
      let (first, visited) ← tree job g t visited
      let (rest, visited) ← trees job g ts visited
      return (first :: rest, visited)

end

/-- The trees below the roots above some nodes, in the order in which the roots are met. -/
def forest (job : Job) : List String → Containment → List String → Chronicled (List PlanTree)
  | [], _, _ => return []
  | id :: ids, g, visited => do
    let (found, g) := g.root id
    let root ← silent (Build.ofExcept found)
    if visited.contains root then forest job ids g visited
    else
      let (first, visited) ← tree job g (g.tree root) visited
      let rest ← forest job ids g visited
      return first :: rest

def plan (job : Job) : Chronicled Plan := do
  let t := job.scene.topology
  let g ← part .graph (Build.onLog (Containment.build t))
  silent (Build.checkTargets t)
  let roots ← forest job g.ids g []
  let p ← part .groups (Build.onLog (Plan.decorate job.registry t.groups ⟨t.name, roots, []⟩))
  part .completion (Eval.note .info "topology compiled"
    [("roots", .ofNat p.roots.length), ("nodes", .ofNat p.nodeCount)])
  return p

/-- The plan of a job's topology, everything recorded on the way tagged. -/
def taggedPlan (job : Job) : Chronicled Plan := tagged Build.passTags (plan job)

end Chronicled

/-- From one log to another, all that is captured is captured during stretches, whose tags are right
over outer ones; the tags in force are the same again. -/
structure Attributed (outer : Fields) (before after : Log) (stretches : List Stretch) : Prop where
  restored : after.tagStack = before.tagStack
  captured : after.captured = before.captured ++ stretches.flatMap Stretch.captured
  isTagged : ∀ st ∈ stretches, st.IsTagged outer
  goesOn : Log.GoesOn before after

namespace Attributed

variable {outer : Fields} {log log' log'' : Log} {ss ss' : List Stretch}

theorem refl (outer : Fields) (log : Log) : Attributed outer log log [] :=
  ⟨rfl, (List.append_nil _).symm, List.forall_mem_nil _, .refl⟩

theorem trans (h : Attributed outer log log' ss) (h' : Attributed outer log' log'' ss') :
    Attributed outer log log'' (ss ++ ss') := by
  constructor
  · exact h'.restored.trans h.restored
  · rw [h'.captured, h.captured, List.flatMap_append, List.append_assoc]
  · exact List.forall_mem_append.2 ⟨h.isTagged, h'.isTagged⟩
  · exact h.goesOn.trans h'.goesOn

theorem of_notes (h : Log.Notes log log') {which : Part}
    (htags : log.scopeTags = Entries.putAll outer which.tags) :
    Attributed outer log log' [⟨which, log, log'⟩] := by
  obtain ⟨es, hcaptured, hes⟩ := h.captured
  constructor
  · exact h.tagStack
  · rw [List.flatMap_singleton, Stretch.captured_eq hcaptured, hcaptured]
  · rw [List.forall_mem_singleton, Stretch.IsTagged, Stretch.captured_eq hcaptured]
    intro e he
    refine (hes e he).imp_right ?_
    rintro ⟨hmild, hscope⟩
    exact ⟨hscope.trans htags, fun hgrave => absurd hgrave hmild⟩
  · exact h.goesOn

/-- Tags that are pushed and dropped again leave no trace. -/
theorem tagged {tags : Fields} {pushed : Log} (hpush : log.pushTags tags = (true, pushed))
    (h : Attributed outer pushed log' ss) : Attributed outer log log'.popTags ss := by
  have hcaptured : pushed.captured = log.captured := by
    rw [← Log.captured_pushTags log tags, hpush]
  have hpop : pushed.popTags = log := Log.popTags_pushTags hpush
  constructor
  · rw [← hpop]
    exact congrArg List.tail h.restored
  · rw [← hcaptured]
    exact h.captured
  · exact h.isTagged
  · have hstep : Log.Step log pushed := by
      have hstep : Log.Step log (log.pushTags tags).2 := .push log tags
      rwa [hpush] at hstep
    exact (h.goesOn.head hstep).tail (.pop log')

end Attributed

namespace Log

/-- The tags in force on a tag stack: those of inner pushes replace those of outer ones. -/
def scope (stack : List Fields) : Fields := stack.reverse.foldl Entries.putAll []

theorem scopeTags_eq (log : Log) : log.scopeTags = scope log.tagStack := rfl

theorem scope_cons (tags : Fields) (stack : List Fields) :
    scope (tags :: stack) = Entries.putAll (scope stack) tags := by
  rw [scope, List.reverse_cons, List.foldl_append, List.foldl_cons, List.foldl_nil, scope]

end Log

/-- On a tag stack, the tags of a node give what is recorded the tags of that node over outer ones,
whatever nodes are on the stack already. -/
def AdmitsNodes (outer : Fields) (stack : List Fields) : Prop :=
  ∀ id, Entries.putAll (Log.scope stack) (Build.nodeTags id) =
    Entries.putAll outer (Part.node id).tags

/-- While the tags of `stack` are in force, a chronicled build does what a build does, and
attributes what that captures. -/
structure Chronicles {α : Type} (outer : Fields) (stack : List Fields) (y : Chronicled α)
    (x : Build α) : Prop where
  run : ∀ c : Chronicle, c.pass.log.tagStack = stack →
    (y c).1 = (x c.pass).1 ∧ (y c).2.pass = (x c.pass).2 ∧
    ∃ ss, (y c).2.stretches = c.stretches ++ ss ∧ Attributed outer c.pass.log (x c.pass).2.log ss

namespace Chronicles

variable {α β : Type} {outer : Fields} {stack : List Fields} {x : Build α} {y : Chronicled α}
  {f : α → Build β} {g : α → Chronicled β}

theorem pure (a : α) : Chronicles outer stack (pure a) (pure a) :=
  ⟨fun c _ => ⟨rfl, rfl, [], (List.append_nil _).symm, .refl outer c.pass.log⟩⟩

theorem bind (hx : Chronicles outer stack y x) (hf : ∀ a, Chronicles outer stack (g a) (f a)) :
    Chronicles outer stack (y >>= g) (x >>= f) := by
  refine ⟨fun c hc => ?_⟩
  obtain ⟨houtcome, hpass, ss, hss, hattributed⟩ := hx.run c hc
  have hrun : (y >>= g) c = ExceptT.bindCont g (y c).1 (y c).2 := rfl
  have hrun' : (x >>= f) c.pass = ExceptT.bindCont f (x c.pass).1 (x c.pass).2 := rfl
  rw [hrun, hrun', houtcome]
  cases (x c.pass).1 with
  | error e => exact ⟨rfl, hpass, ss, hss, hattributed⟩
  | ok a =>
    have hstack : (y c).2.pass.log.tagStack = stack := by rw [hpass, hattributed.restored, hc]
    obtain ⟨houtcome', hpass', ss', hss', hattributed'⟩ := (hf a).run (y c).2 hstack
    rw [hpass] at houtcome' hpass' hattributed'
    refine ⟨houtcome', hpass', ss ++ ss', ?_, hattributed.trans hattributed'⟩
    rw [← List.append_assoc, ← hss]
    exact hss'

/-- A part is attributed as a whole. -/
theorem part (hx : x.Notes) {which : Part}
    (htags : Log.scope stack = Entries.putAll outer which.tags) :
    Chronicles outer stack (Chronicled.part which x) x := by
  refine ⟨fun c hc => ⟨rfl, rfl, [⟨which, c.pass.log, (x c.pass).2.log⟩], rfl, ?_⟩⟩
  refine .of_notes (hx.run c.pass) ?_
  rw [Log.scopeTags_eq, hc, htags]

theorem silent (hx : ∀ p : Pass, (x p).2.log = p.log) :
    Chronicles outer stack (Chronicled.silent x) x := by
  refine ⟨fun c _ => ⟨rfl, rfl, [], (List.append_nil _).symm, ?_⟩⟩
  rw [hx]
  exact .refl outer c.pass.log

/-- Tags are dropped when a build ends, so that those before it are in force again. -/
theorem tagged {tags : Fields} (hx : Chronicles outer (tags :: stack) y x)
    (hkept : Log.keptTags tags = tags) (hne : tags ≠ []) :
    Chronicles outer stack (Chronicled.tagged tags y) (Build.tagged tags x) := by
  refine ⟨fun c hc => ?_⟩
  generalize hpushed : ({ c.pass.log with tagStack := tags :: c.pass.log.tagStack } : Log) = pushed
  have hpush : c.pass.log.pushTags tags = (true, pushed) := by
    rw [← hpushed, Log.pushTags, hkept, if_neg (by simpa using hne)]
  have hstack : pushed.tagStack = tags :: stack := by rw [← hpushed, ← hc]
  rw [Chronicled.tagged, Build.tagged, hpush]
  obtain ⟨houtcome, hpass, ss, hss, hattributed⟩ := hx.run { c with pass.log := pushed } hstack
  refine ⟨houtcome, ?_, ss, hss, hattributed.tagged hpush⟩
  exact congrArg (fun p : Pass => { p with log := p.log.popTags }) hpass

end Chronicles

section

variable {outer : Fields} {stack : List Fields} (job : Job)

/-- Tags of a node replace those of the nodes around it, so that more nodes can be inside. -/
theorem AdmitsNodes.cons (h : AdmitsNodes outer stack) (id : String) :
    AdmitsNodes outer (Build.nodeTags id :: stack) := by
  intro id'
  rw [← h id', Log.scope_cons]
  exact Entries.put_put "node" (.str id) (.str id') (Log.scope stack)

theorem admitsNodes_pass (stack : List Fields) :
    AdmitsNodes (Log.scope stack) (Build.passTags :: stack) := by
  intro id
  rw [Log.scope_cons, Part.tags, Entries.putAll, Entries.putAll, Entries.putAll, List.foldl_append]

mutual

/-- A tree of node plans is built inside any nodes. -/
theorem chronicles_tree {stack : List Fields} (h : AdmitsNodes outer stack) (g : Containment)
    (t : Tree String) (visited : List String) :
    Chronicles outer stack (Chronicled.tree job g t visited) (Build.tree job g t visited) := by
  match t with
  | .node id below =>
    have hinside : AdmitsNodes outer (Build.nodeTags id :: stack) := h.cons id
    have hown : Log.scope (Build.nodeTags id :: stack) =
        Entries.putAll outer (Part.node id).tags := by
      rw [Log.scope_cons, h id]
    rw [Chronicled.tree, Build.tree]
    -- the children are built before the tags of the node are dropped, and hide them with their own
    refine .tagged ?_ rfl (by simp [Build.nodeTags])
    refine .bind (.part (Build.notes_nodePlan job id (g.childCount id)) hown) fun p => ?_
    exact (chronicles_trees hinside g below (id :: visited)).bind fun built =>
      .pure (Tree.node p built.1, built.2)

theorem chronicles_trees {stack : List Fields} (h : AdmitsNodes outer stack) (g : Containment)
    (ts : List (Tree String)) (visited : List String) :
    Chronicles outer stack (Chronicled.trees job g ts visited) (Build.trees job g ts visited) := by
  match ts with
  | [] =>
    rw [Chronicled.trees, Build.trees]
    exact .pure ([], visited)
  | t :: ts =>
    rw [Chronicled.trees, Build.trees]
    split
    · exact chronicles_trees h g ts visited
    · refine (chronicles_tree h g t visited).bind fun first => ?_
      exact (chronicles_trees h g ts first.2).bind fun rest => .pure (first.1 :: rest.1, rest.2)

end

theorem chronicles_forest (h : AdmitsNodes outer stack) (ids : List String) (g : Containment)
    (visited : List String) : Chronicles outer stack (Chronicled.forest job ids g visited)
      (Build.forest job ids g visited) := by
  induction ids generalizing g visited with
  | nil => exact .pure []
  | cons id ids ih =>
    rw [Chronicled.forest, Build.forest]
    refine .bind (.silent fun p => by rw [Build.ofExcept_run]) fun root => ?_
    split
    · exact ih _ _
    · refine (chronicles_tree job h _ _ _).bind fun first => ?_
      exact (ih _ first.2).bind fun rest => .pure (first.1 :: rest)

theorem log_checkTargets (t : Topology) (p : Pass) : (Build.checkTargets t p).2.log = p.log := by
  unfold Build.checkTargets
  cases Build.strayTarget? t <;> rfl

/-- The build of a plan is chronicled whatever is wrong with the topology. -/
theorem chronicles_taggedPlan (stack : List Fields) :
    Chronicles (Log.scope stack) stack (Chronicled.taggedPlan job) (Build.taggedPlan job) := by
  have hpass : Log.scope (Build.passTags :: stack) =
      Entries.putAll (Log.scope stack) Build.passTags :=
    Log.scope_cons Build.passTags stack
  refine .tagged ?_ rfl (by simp [Build.passTags])
  refine .bind (.part (.onLog (Containment.notes_build _)) hpass) fun g => ?_
  refine .bind (.silent (log_checkTargets _)) fun _ => ?_
  refine (chronicles_forest job (admitsNodes_pass stack) _ _ _).bind fun roots => ?_
  refine .bind (.part (.onLog (Plan.notes_decorate _ _ _)) hpass) fun p => ?_
  refine .bind (.part (.lift (.note (by decide) _ _)) hpass) fun _ => ?_
  exact .pure p

/-- The build of a plan goes on with the log, whatever is wrong with the topology. -/
theorem Build.goesOn_taggedPlan (p : Pass) : Log.GoesOn p.log (taggedPlan job p).2.log := by
  obtain ⟨-, -, ss, -, hattributed⟩ :=
    (chronicles_taggedPlan job p.log.tagStack).run ⟨p, []⟩ rfl
  exact hattributed.goesOn

end

end DeployPlan
