import DeployPlan.Proofs.Evaluation.Pass

/-!
# Evaluation with a memory

A pass remembers the outcomes of properties, also of those that were cut while a cycle of reads was
being evaluated. What it remembers for a settled property can be trusted all the same: whatever was
evaluated before, in whatever scope, its outcome is its plain value.
-/
namespace DeployPlan

/-- An evaluation that is asked for: of a property, of all properties of a node, or of a value in a
scope. -/
inductive Query where
  | property (key : PropertyKey)
  | properties (id : String)
  | value (scope : Scope) (v : PropertyValue)
deriving DecidableEq

namespace Query

/-- The properties that the answer to a query reads, in order. -/
def keys (s : Scene) : Query → List PropertyKey
  | .property key => [key]
  | .properties id => (s.propertyNames id).map (PropertyKey.mk id)
  | .value scope v => s.reads scope v

def run (s : Scene) : Query → Pass → Pass
  | .property key, p => (Eval.nodeProperty s key p).2
  | .properties id, p => (Eval.nodeProperties s id p).2
  | .value scope v, p => (Eval.resolve s scope v p).2

/-- A query visits the properties that it reads. -/
theorem run_eq_visitAll (s : Scene) (q : Query) {p : Pass} (hp : p.resolving = []) :
    (q.run s p).resolving = [] ∧ (q.run s p).memo = s.visitAll [] p.memo (q.keys s) := by
  cases q with
  | property key =>
    obtain ⟨hstack, hmemo, -⟩ := (Eval.visits_nodeProperty s [] key).run p hp
    exact ⟨hstack, hmemo⟩
  | properties id =>
    obtain ⟨hstack, hmemo, -⟩ := (Eval.visits_nodeProperties s [] id).run p hp
    exact ⟨hstack, hmemo⟩
  | value scope v =>
    obtain ⟨hstack, hmemo, -⟩ := (Eval.visits_resolve s [] scope v).run p hp
    exact ⟨hstack, hmemo⟩

end Query

namespace Scene

/-- The pass after queries have been answered in turn, from one that has evaluated nothing. -/
def after (s : Scene) (log : Log) (history : List Query) : Pass :=
  history.foldl (fun p q => q.run s p) (.start log)

/-- Between queries nothing is being evaluated, and the memo is that of the visits made so far. -/
theorem after_eq_visitAll (s : Scene) (log : Log) (history : List Query) :
    (s.after log history).resolving = [] ∧
      (s.after log history).memo = s.visitAll [] [] (history.flatMap (Query.keys s)) := by
  have hrun (p : Pass) (hp : p.resolving = []) :
      (history.foldl (fun p q => q.run s p) p).resolving = [] ∧
        (history.foldl (fun p q => q.run s p) p).memo =
          s.visitAll [] p.memo (history.flatMap (Query.keys s)) := by
    induction history generalizing p with
    | nil => exact ⟨hp, rfl⟩
    | cons q history ih =>
      obtain ⟨hstack, hmemo⟩ := q.run_eq_visitAll s hp
      rw [List.foldl_cons, List.flatMap_cons, visitAll_append, ← hmemo]
      exact ih (q.run s p) hstack
  exact hrun (.start log) rfl

variable {s : Scene} {stack : List PropertyKey} {m : Memo} {key k : PropertyKey}

/-- A property is settled when all that it reads are. -/
theorem settled_of_reads (h : ∀ k ∈ s.readsOf key, s.Settled k) : s.Settled key := by
  intro k hk
  rcases Relation.ReflTransGen.cases_head hk with rfl | ⟨read, hread, hrest⟩
  · intro hcycle
    obtain ⟨read, hread, hback⟩ := Relation.TransGen.head'_iff.1 hcycle
    exact h read hread key hback hcycle
  · exact h read hread k hrest

theorem plain_of_undeclared (h : s.declared? key = none) : s.plain key = .unresolved := by
  rw [plain]
  cases Eval.declaredProperties s with
  | zero => rw [plainWithin]
  | succ d => rw [plainWithin, valueOf_of_undeclared h]

/-- The outcomes of settled properties in a memo are their plain values. -/
def Trusts (s : Scene) (m : Memo) : Prop :=
  ∀ k, s.Settled k → m.Knows k → m.answer k = s.plain k

/-- A settled property that is done has its plain value; it is not among the properties that lead
to it. -/
theorem Trusts.answer_eq (hm : s.Trusts m) (hk : s.Settled k) (hdone : s.Done stack m k)
    (hstack : ∀ above ∈ stack, Relation.TransGen s.Reads above k) : m.answer k = s.plain k := by
  by_cases hknows : m.Knows k
  · exact hm k hk hknows
  rcases hdone.resolve_left hknows with hmem | hnone
  · exact absurd (hstack k hmem) (hk k .refl)
  · rw [Memo.answer_of_not_knows hknows, plain_of_undeclared hnone]

/-- An evaluation leaves a memo that can be trusted, whatever it cuts: a settled property is never
evaluated while it is being evaluated itself. -/
theorem Trusts.visit (hm : s.Trusts m)
    (hstack : ∀ above ∈ stack, Relation.TransGen s.Reads above key) :
    s.Trusts (s.visit stack m key) := by
  induction stack, m, key using visit_induction (s := s) with
  | done stack m key hdone => rwa [visit_of_done hdone]
  | new stack m key hnew ih =>
    have habove (k : PropertyKey) (hk : k ∈ s.readsOf key) (above : PropertyKey)
        (hmem : above ∈ key :: stack) : Relation.TransGen s.Reads above k := by
      rcases List.mem_cons.1 hmem with rfl | hmem
      · exact .single hk
      · exact (hstack above hmem).tail hk
    have hread : s.Trusts (s.visitAll (key :: stack) m (s.readsOf key)) :=
      visitAll_induction hm fun m' hm' k hk => ih m' k hm' (habove k hk)
    intro k hk hknows
    rw [visit_of_new hnew] at hknows ⊢
    by_cases hkey : k = key
    · subst hkey
      rw [Memo.answer_cons_self, plain_eq hk]
      refine valueOf_congr fun read hr => ?_
      exact hread.answer_eq (hk.of_reads hr) (done_visitAll hr) (habove read hr)
    · rw [Memo.answer_cons_of_ne hkey]
      exact hread k hk ((Memo.knows_cons.1 hknows).resolve_left hkey)

/-- After every history the memo can be trusted. -/
theorem trusts_after (s : Scene) (log : Log) (history : List Query) :
    s.Trusts (s.after log history).memo := by
  rw [(s.after_eq_visitAll log history).2]
  refine visitAll_induction (fun k _ hknows => absurd hknows Memo.not_knows_nil) ?_
  intro m hm k _
  exact hm.visit (List.forall_mem_nil _)

/-- The memo has the plain value of a settled property as soon as it has been evaluated. -/
theorem Settled.answer_after (h : s.Settled key) (log : Log) (history : List Query) :
    (s.visitAll [] (s.after log history).memo [key]).answer key = s.plain key := by
  have htrust : s.Trusts (s.visit [] (s.after log history).memo key) :=
    (s.trusts_after log history).visit (List.forall_mem_nil _)
  exact htrust.answer_eq h done_visit (List.forall_mem_nil _)

theorem Settled.outcome_eq (h : s.Settled key) (log : Log) (history : List Query) :
    (Eval.nodeProperty s key (s.after log history)).1 = s.plain key := by
  have hstart := (s.after_eq_visitAll log history).1
  obtain ⟨-, -, hval⟩ := (Eval.visits_nodeProperty s [] key).run _ hstart
  rw [hval, h.answer_after]

/-- After every history of evaluations, a settled property has its plain value, which is what its
declared value stands for in its own node's scope; a call in any scope that reads it has the same
outcome. -/
theorem nodeProperty_eq_plain (s : Scene) (log : Log) (history : List Query) (key : PropertyKey)
    (h : s.Settled key) :
    (Eval.nodeProperty s key (s.after log history)).1 = s.plain key ∧
    s.plain key = s.valueOf s.plain key ∧
    ∀ (scope : Scope) (call : FunctionCall), s.readBy? scope call = some key →
      (Eval.resolve s scope (.call call) (s.after log history)).1 = s.plain key := by
  refine ⟨h.outcome_eq log history, plain_eq h, fun scope call hread => ?_⟩
  have hstart := (s.after_eq_visitAll log history).1
  obtain ⟨-, -, hval⟩ := (Eval.visits_resolve s [] scope (.call call)).run _ hstart
  have hname : call.name = "get_property" := by
    by_contra hname
    rw [readBy?, if_neg hname] at hread
    cases hread
  rw [hval, reads, hread, Option.toList_some, denote, denoteCall, if_pos hname, hread,
    Option.map_some, Option.getD_some, h.answer_after]

/-- The reading of another property of the same node. -/
def ownProperty (name : String) : PropertyValue := .call ⟨"get_property", ["SELF", name]⟩

/-- A node whose url reads the port of the store it requires. The store has a property that reads
itself besides. -/
def shop : Scene where
  topology := {
    name := "shop"
    nodes := [
      ⟨"web", "Web", none, none,
        .ofEntries [("url", .concat [.scalar "tcp://",
          .call ⟨"get_property", ["SELF", "db", "port"]⟩])],
        ["db"], [⟨"web_db", "db", "store", "DependsOn", ∅, []⟩], [], []⟩,
      ⟨"store", "Store", none, none,
        .ofEntries [("port", .scalar "5432"),
          ("loop", .concat [ownProperty "loop", ownProperty "port"])],
        [], [], [], []⟩]
    groups := []
    dependencies := []
    archive := none }
  profiles := []

/-- The url has its plain value after the property that reads itself was cut. -/
theorem nodeProperty_url_shop : shop.Settled ⟨"web", "url"⟩ ∧ ¬ shop.Settled ⟨"store", "loop"⟩ ∧
    ∀ log, (Eval.nodeProperty shop ⟨"web", "url"⟩
      (shop.after log [.property ⟨"store", "loop"⟩])).1 = .resolved (.str "tcp://5432") := by
  have hport : shop.Settled ⟨"store", "port"⟩ := by
    have hreads : shop.readsOf ⟨"store", "port"⟩ = [] := by decide +kernel
    refine settled_of_reads fun k hk => ?_
    rw [hreads] at hk
    cases hk
  have hurl : shop.Settled ⟨"web", "url"⟩ := by
    have hreads : shop.readsOf ⟨"web", "url"⟩ = [⟨"store", "port"⟩] := by decide +kernel
    refine settled_of_reads fun k hk => ?_
    rw [hreads, List.mem_singleton] at hk
    rwa [hk]
  have hloop : shop.Reads ⟨"store", "loop"⟩ ⟨"store", "loop"⟩ := by
    have hreads : shop.readsOf ⟨"store", "loop"⟩ = [⟨"store", "loop"⟩, ⟨"store", "port"⟩] := by
      decide +kernel
    rw [Reads, hreads]
    exact List.mem_cons_self
  refine ⟨hurl, fun hsettled => hsettled _ .refl (.single hloop), fun log => ?_⟩
  obtain ⟨hval, -, -⟩ := nodeProperty_eq_plain shop log [.property ⟨"store", "loop"⟩] _ hurl
  rw [hval]
  decide +kernel

end Scene

end DeployPlan
