import DeployPlan.Compiler
import DeployPlan.Proofs.Log

/-!
# What builds note in the log

Evaluations and the plans of single nodes do nothing to the log but note things in it, and report no
failure. That is so for each step they are made of, whatever its outcome is; it is so for the steps
of a compilation around them.
-/
namespace DeployPlan

namespace Eval

variable {α β : Type}

/-- An evaluation does nothing to the log but note things in it. -/
structure Notes (x : Eval α) : Prop where
  run : ∀ p : Pass, Log.Notes p.log (x p).2.log

namespace Notes

variable {x : Eval α} {f : α → Eval β}

theorem pure (a : α) : Notes (pure a : Eval α) := ⟨fun _ => .refl⟩

theorem bind (hx : Notes x) (hf : ∀ a, Notes (f a)) : Notes (x >>= f) :=
  ⟨fun p => (hx.run p).trans ((hf (x p).1).run (x p).2)⟩

theorem note {level : Level} (mild : level ≠ .error) (message : String) (data : Fields) :
    Notes (note level message data) :=
  ⟨fun p => .single (.record mild p.log message (some (.obj data)))⟩

theorem noted {level : Level} (mild : level ≠ .error) (message : String) (data : Fields) (a : α) :
    Notes (Eval.note level message data >>= fun _ => (Pure.pure a : Eval α)) :=
  (note mild message data).bind fun _ => pure a

theorem get {f : Pass → Eval β} (hf : ∀ p, Notes (f p)) : Notes (MonadState.get >>= f) :=
  ⟨fun p => (hf p).run p⟩

theorem mapM {f : α → Eval β} (hf : ∀ a, Notes (f a)) (as : List α) : Notes (as.mapM f) := by
  induction as with
  | nil => exact pure []
  | cons a as ih =>
    rw [List.mapM_cons]
    exact (hf a).bind fun b => ih.bind fun bs => pure (b :: bs)

theorem foldlM {f : β → α → Eval β} (hf : ∀ b a, Notes (f b a)) (as : List α) (b : β) :
    Notes (as.foldlM f b) := by
  induction as generalizing b with
  | nil => exact pure b
  | cons a as ih =>
    rw [List.foldlM_cons]
    exact (hf b a).bind ih

theorem forM {f : α → Eval Unit} (hf : ∀ a, Notes (f a)) (as : List α) : Notes (as.forM f) := by
  induction as with
  | nil => exact pure ()
  | cons a as ih => exact (hf a).bind fun _ => ih

theorem missingNode (call : FunctionCall) (key : String) : Notes (missingNode call key) :=
  noted (by decide) _ _ _

theorem badArity (call : FunctionCall) : Notes (badArity call) :=
  noted (by decide) _ _ _

theorem unsupported (call : FunctionCall) : Notes (unsupported call) :=
  noted (by decide) _ _ _

theorem requirementTarget (s : Scene) (n : NodeTemplate) (requirement : String) :
    Notes (requirementTarget s n requirement) := by
  unfold Eval.requirementTarget
  split
  · exact pure _
  · exact noted (by decide) _ _ _

theorem remember (key : PropertyKey) {evaluate : Eval Resolution} (h : Notes evaluate) :
    Notes (remember key evaluate) :=
  ⟨fun p => h.run { p with resolving := key :: p.resolving }⟩

section

variable {s : Scene} {scope : Scope} {read : PropertyKey → Eval Resolution}

theorem resolveCall (hread : ∀ key, Notes (read key)) (call : FunctionCall) :
    Notes (resolveCall read s scope call) := by
  have htarget (n : NodeTemplate) (requirement : String)
      {next : Option NodeTemplate → Eval Resolution} (hnext : ∀ target, Notes (next target)) :
      Notes (Eval.requirementTarget s n requirement >>= next) :=
    (requirementTarget s n requirement).bind hnext
  unfold Eval.resolveCall
  split
  · split
    · split
      · exact missingNode ..
      · exact hread _
    · split
      · exact missingNode ..
      · refine htarget _ _ fun target => ?_
        split
        · exact hread _
        · exact pure _
    · exact badArity _
  · split
    · split
      · split
        · exact pure _
        · exact (missingNode ..).bind fun _ => pure _
      · split
        · exact missingNode ..
        · refine htarget _ _ fun target => ?_
          split <;> exact pure _
      · exact badArity _
    · exact unsupported _

mutual

theorem resolveWith (hread : ∀ key, Notes (read key)) (v : PropertyValue) :
    Notes (resolveWith read s scope v) := by
  match v with
  | .scalar _ | .complex _ | .list _ =>
    rw [Eval.resolveWith]
    exact pure _
  | .other _ =>
    rw [Eval.resolveWith]
    exact noted (by decide) _ _ _
  | .call call =>
    rw [Eval.resolveWith]
    exact resolveCall hread call
  | .concat parts =>
    rw [Eval.resolveWith]
    exact (resolveParts hread .empty parts).bind fun _ => pure _

theorem resolveParts (hread : ∀ key, Notes (read key)) (format : FormatText)
    (parts : List PropertyValue) : Notes (resolveParts read s scope format parts) := by
  match parts with
  | [] =>
    rw [Eval.resolveParts]
    exact pure _
  | part :: parts =>
    rw [Eval.resolveParts]
    exact (resolveWith hread part).bind fun outcome => resolveParts hread _ parts

end

theorem readProperty {evaluate : PropertyValue → Eval Resolution}
    (h : ∀ raw, Notes (evaluate raw)) (key : PropertyKey) :
    Notes (readProperty s evaluate key) := by
  refine get fun p => ?_
  split
  · exact pure _
  · split
    · exact noted (by decide) _ _ _
    · split
      · exact pure _
      · exact (h _).remember key

theorem propertyWithin (depth : Nat) (key : PropertyKey) : Notes (propertyWithin s depth key) := by
  induction depth generalizing key with
  | zero => exact readProperty (fun _ => pure _) key
  | succ depth ih => exact readProperty (fun raw => resolveWith ih raw) key

end

theorem nodeProperty (s : Scene) (key : PropertyKey) : Notes (nodeProperty s key) :=
  propertyWithin _ key

theorem resolve (s : Scene) (scope : Scope) (v : PropertyValue) : Notes (resolve s scope v) :=
  resolveWith (nodeProperty s) v

theorem nodeProperties (s : Scene) (id : String) : Notes (nodeProperties s id) :=
  mapM (fun _ => (nodeProperty s _).bind fun _ => pure _) _

end Notes

end Eval

namespace Build

variable {α β : Type}

/-- A build does nothing to the log but note things in it, whether it fails or not. -/
structure Notes (x : Build α) : Prop where
  run : ∀ p : Pass, Log.Notes p.log (x p).2.log

namespace Notes

variable {x : Build α} {f : α → Build β}

theorem pure (a : α) : Notes (pure a : Build α) := ⟨fun _ => .refl⟩

theorem fail (e : Failure) : Notes (fail e : Build α) := ⟨fun _ => .refl⟩

theorem ofExcept (r : Except Failure α) : Notes (ofExcept r) :=
  ⟨fun p => by rw [ofExcept_run]⟩

theorem bind (hx : Notes x) (hf : ∀ a, Notes (f a)) : Notes (x >>= f) := by
  refine ⟨fun p => ?_⟩
  have hrun : (x >>= f) p = ExceptT.bindCont f (x p).1 (x p).2 := rfl
  rw [hrun]
  cases (x p).1 with
  | error e => exact hx.run p
  | ok a => exact (hx.run p).trans ((hf a).run (x p).2)

theorem lift {x : Eval α} (hx : x.Notes) : Notes (liftM x : Build α) :=
  ⟨fun p => hx.run p⟩

theorem mapM {f : α → Build β} (hf : ∀ a, Notes (f a)) (as : List α) : Notes (as.mapM f) := by
  induction as with
  | nil => exact pure []
  | cons a as ih =>
    rw [List.mapM_cons]
    exact (hf a).bind fun b => ih.bind fun bs => pure (b :: bs)

theorem onLog {f : Log → Except Failure α × Log} (hf : ∀ log, Log.Notes log (f log).2) :
    Notes (onLog f) :=
  ⟨fun p => hf p.log⟩

end Notes

open Eval.Notes in
theorem Notes.noted {level : Level} (mild : level ≠ .error) (message : String) (data : Fields)
    (a : α) : Notes (liftM (Eval.note level message data) >>= fun _ => (Pure.pure a : Build α)) :=
  (lift (note mild message data)).bind fun _ => pure a

section

variable (job : Job) (n : NodeTemplate)

theorem notes_template (id : String) : Notes (template job id) := by
  unfold template
  split
  · exact .pure _
  · exact .fail _

theorem notes_select (children : Nat) : Notes (select job n children) :=
  (Notes.ofExcept _).bind fun _ => .noted (by decide) _ _ _

theorem notes_noteUnresolved (outcomes : List (String × Resolution)) :
    (noteUnresolved outcomes).Notes := by
  refine Eval.Notes.forM (fun o => ?_) outcomes
  split
  · exact .note (by decide) _ _
  · exact .pure ()

theorem notes_putProperties (p : NodePlan) : (putProperties job n p).Notes :=
  (Eval.Notes.nodeProperties _ _).bind fun outcomes =>
    (notes_noteUnresolved outcomes).bind fun _ => .pure _

theorem notes_edgeProperty (scope : Scope) (r : Relationship) (name : String) :
    (edgeProperty job scope r name).Notes := by
  unfold edgeProperty
  split
  · exact .resolve _ _ _
  · exact .pure _

theorem notes_injectedBy (r : Relationship) : Notes (injectedBy job n r) := by
  refine (Notes.lift (notes_edgeProperty ..)).bind fun name =>
    (Notes.lift (notes_edgeProperty ..)).bind fun collection =>
      (Notes.lift (notes_edgeProperty ..)).bind fun value => ?_
  dsimp only
  split
  · exact .pure _
  · exact .fail _

theorem notes_putInjected (p : NodePlan) : Notes (putInjected job n p) :=
  (Notes.mapM (notes_injectedBy job n) _).bind fun _ => .pure _

theorem notes_stageArtifact (e : RuntimeEnvironment) (artifact : String × Artifact) :
    (stageArtifact job e artifact).Notes := by
  unfold stageArtifact stageArtifact.unnamed stageNamed
  dsimp only
  split
  · split
    · split
      · exact .noted (by decide) _ _ _
      · split
        · split
          · exact .pure _
          · exact .noted (by decide) _ _ _
        · exact .noted (by decide) _ _ _
    · exact .noted (by decide) _ _ _
  · exact .noted (by decide) _ _ _

theorem notes_putRuntime (p : NodePlan) : (putRuntime job n p).Notes :=
  (Eval.Notes.foldlM (notes_stageArtifact job) _ _).bind fun _ => .pure _

theorem notes_putAttribute (scope : Scope) (p : NodePlan) (name : String) (v : PropertyValue) :
    (putAttribute job scope p name v).Notes := by
  refine (Eval.Notes.resolve _ _ _).bind fun outcome => ?_
  split
  · exact .pure _
  · exact .noted (by decide) _ _ _

theorem notes_putAttributes (p : NodePlan) : (putAttributes job n p).Notes := by
  refine Eval.Notes.foldlM (fun p a => ?_) _ p
  split
  · exact notes_putAttribute ..
  · exact .pure _

theorem notes_pushExports (scope : Scope) (script : FormatText)
    (inputs : List (String × PropertyValue)) : (pushExports job scope script inputs).Notes :=
  Eval.Notes.foldlM (fun _ _ => (Eval.Notes.resolve _ _ _).bind fun _ => .pure _) _ _

theorem notes_loadScript (id : String) (a : Artifact) : Notes (loadScript job id a) := by
  unfold loadScript
  split
  · exact .pure _
  · exact .fail _

theorem notes_operationScript? (id : String) (scope : Scope) (op : Operation) :
    Notes (operationScript? job id scope op) := by
  unfold operationScript?
  split
  · exact .noted (by decide) _ _ _
  · split
    · exact (notes_loadScript ..).bind fun _ =>
        (Notes.lift (notes_pushExports ..)).bind fun _ => .pure _
    · exact .noted (by decide) _ _ _

theorem notes_contribution (id : String) (scope : Scope) (slot : CommandSlot) (op : Operation) :
    Notes (contribution job id scope slot op) := by
  refine (notes_operationScript? ..).bind fun script => ?_
  split <;> exact .pure _

theorem notes_ownContribution (op : Operation) : Notes (ownContribution job n op) := by
  unfold ownContribution
  split
  · exact notes_contribution ..
  · exact .noted (by decide) _ _ _

theorem notes_edgeContribution (id source : String) (r : Relationship) (atEnd : RelationshipEnd)
    (op : Operation) : Notes (edgeContribution job id source r atEnd op) := by
  unfold edgeContribution
  split
  · exact notes_contribution ..
  · split
    · exact .noted (by decide) _ _ _
    · exact .pure _

theorem notes_gather {f : α → Build (List Contribution)} (hf : ∀ a, Notes (f a))
    (sources : List α) : Notes (gather f sources) :=
  (Notes.mapM hf sources).bind fun _ => .pure _

theorem notes_putCommands (p : NodePlan) : Notes (putCommands job n p) := by
  have hedges (atEnd : RelationshipEnd) (edges : List (String × Relationship)) :
      Notes (gather (edgeContributions job n.id atEnd) edges) :=
    notes_gather (fun _ => notes_gather (fun _ => notes_edgeContribution ..) _) edges
  have hall : Notes (contributions job n) :=
    (notes_gather (notes_ownContribution job n) _).bind fun _ =>
      (hedges .source _).bind fun _ => (hedges .target _).bind fun _ => .pure _
  exact hall.bind fun _ => .pure _

/-- The plan of a node notes things, whatever is wrong with the node. -/
theorem notes_nodePlan (id : String) (children : Nat) : Notes (nodePlan job id children) := by
  refine (notes_template job id).bind fun n => (notes_select job n children).bind fun p =>
    (Notes.lift (notes_putProperties job n p)).bind fun p =>
      (notes_putInjected job n _).bind fun p => ?_
  split
  · exact (Notes.lift (notes_putRuntime job n p)).bind fun p =>
      (Notes.lift (notes_putAttributes job n p)).bind fun p => notes_putCommands job n p
  · exact .pure p

end

end Build

/-- The look-up of types notes those that are not known. -/
theorem Scene.notes_gather (lookup : TypeLookup) (dependencies : List Coordinates)
    (names : List String) (known : List (String × TypeProfile)) (log : Log) :
    Log.Notes log (gather lookup dependencies names known log).2 := by
  induction names generalizing known log with
  | nil => exact .refl
  | cons name names ih =>
    rw [gather]
    split
    · exact ih known log
    · split
      · exact .refl
      · next p _ =>
        refine .trans ?_ (ih _ _)
        unfold noteType
        split
        · exact .single (.record (by decide) ..)
        · exact .refl

theorem Scene.notes_build (lookup : TypeLookup) (t : Topology) (log : Log) :
    Log.Notes log (build lookup t log).2 := by
  have hgather := notes_gather lookup t.dependencies (usedTypes t) [] log
  unfold build
  split
  · next f log' h => rwa [h] at hgather
  · next profiles log' h => rwa [h] at hgather

namespace Containment

theorem notes_noteHost (n : NodeTemplate) (log : Log) : Log.Notes log (noteHost n log) := by
  unfold noteHost
  split
  · exact .refl
  · have hrequired : Log.Notes log (if n.requiresHost then
        log.record .warn s!"node {n.id} declares a host requirement without a relationship"
          (some (.obj [("node", .str n.id)])) else log) := by
      split
      · exact .single (.record (by decide) ..)
      · exact .refl
    dsimp only
    split
    · exact hrequired.tail (.record (by decide) ..)
    · exact hrequired

theorem notes_place (t : Topology) (ns : List NodeTemplate) (log : Log) :
    Log.Notes log (place t ns log).2 := by
  induction ns generalizing log with
  | nil => exact .refl
  | cons n ns ih =>
    have hrest := (notes_noteHost n log).trans (ih (noteHost n log))
    rw [place]
    split
    · exact hrest
    · split
      · split
        · next h => rwa [h] at hrest
        · next h => rwa [h] at hrest
      · exact notes_noteHost n log

theorem notes_build (t : Topology) (log : Log) : Log.Notes log (build t log).2 := by
  have hplace := notes_place t t.nodes log
  unfold build
  split
  · next h => rwa [h] at hplace
  · next h => rwa [h] at hplace

end Containment

namespace Group

theorem notes_categoryOf (g : Group) (r : Registry) (behaviorType : String) (log : Log) :
    Log.Notes log (g.categoryOf r behaviorType log).2 := by
  unfold categoryOf
  split
  · exact .refl
  · exact .single (.record (by decide) ..)

theorem notes_applyPolicies (g : Group) (r : Registry) (policies : List Policy) (p : Plan)
    (log : Log) : Log.Notes log (g.applyPolicies r policies p log).2 := by
  induction policies generalizing p log with
  | nil => exact .refl
  | cons policy policies ih =>
    have hpolicy : Log.Notes log (g.applyPolicy r policy p log).2 := by
      unfold applyPolicy
      split
      · exact .refl
      · split
        · exact .refl
        · exact g.notes_categoryOf r _ log
    rw [applyPolicies]
    split
    · next h =>
      rw [h] at hpolicy
      exact hpolicy.trans (ih _ _)
    · next h => rwa [h] at hpolicy

theorem notes_decorate (g : Group) (r : Registry) (p : Plan) (log : Log) :
    Log.Notes log (g.decorate r p log).2 := by
  unfold decorate
  split
  · exact .refl
  · exact g.notes_applyPolicies r _ p log

end Group

theorem Plan.notes_decorate (r : Registry) (groups : List Group) (p : Plan) (log : Log) :
    Log.Notes log (Plan.decorate r groups p log).2 := by
  induction groups generalizing p log with
  | nil => exact .refl
  | cons g groups ih =>
    have hgroup := g.notes_decorate r p log
    rw [Plan.decorate]
    split
    · next h =>
      rw [h] at hgroup
      exact hgroup.trans (ih _ _)
    · next h => rwa [h] at hgroup

end DeployPlan
