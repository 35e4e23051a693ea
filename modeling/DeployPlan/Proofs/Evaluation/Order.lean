import DeployPlan.Proofs.Evaluation.Query

/-!
# The order of evaluations

An outcome that was cut while a cycle of reads was being evaluated is remembered like any other, so
that outcomes depend on what was evaluated first. They do not among properties that lead to one
another exactly if no single evaluation before changes any of them.
-/
namespace DeployPlan

namespace Scene

variable {s : Scene} {stack outer inner : List PropertyKey} {m m₁ m₂ : Memo}
  {key k : PropertyKey} {keys : List PropertyKey} {G : PropertyKey → Prop}

/-- What a memo holds while the properties on the stack are being evaluated: outcomes of declared
properties that are not on the stack, whose reads an evaluation would not evaluate again. -/
structure Coherent (s : Scene) (stack : List PropertyKey) (m : Memo) : Prop where
  declared : ∀ k, m.Knows k → s.declared? k ≠ none
  offStack : ∀ k ∈ stack, ¬ m.Knows k
  closed : ∀ k, m.Knows k → ∀ read ∈ s.readsOf k, s.Done stack m read

theorem coherent_nil : s.Coherent [] [] where
  declared _ h := absurd h Memo.not_knows_nil
  offStack := List.forall_mem_nil _
  closed _ h := absurd h Memo.not_knows_nil

theorem Done.push (h : s.Done stack m k) : s.Done (key :: stack) m k :=
  h.imp_right (Or.imp_left (List.mem_cons_of_mem key))

/-- A property whose evaluation ends has an outcome in place of its mark on the stack. -/
theorem Done.pop {outcome : Resolution} (h : s.Done (key :: stack) m k) :
    s.Done stack ((key, outcome) :: m) k := by
  rcases h with h | h | h
  · exact .inl (Memo.knows_cons.2 (.inr h))
  · rcases List.mem_cons.1 h with rfl | h
    · exact .inl (Memo.knows_cons.2 (.inl rfl))
    · exact .inr (.inl h)
  · exact .inr (.inr h)

theorem Coherent.push (h : s.Coherent stack m) (hkey : ¬ m.Knows key) :
    s.Coherent (key :: stack) m where
  declared := h.declared
  offStack k hk := by
    rcases List.mem_cons.1 hk with rfl | hk
    · exact hkey
    · exact h.offStack k hk
  closed k hk read hread := (h.closed k hk read hread).push

theorem Coherent.pop {outcome : Resolution} (h : s.Coherent (key :: stack) m)
    (hkey : s.declared? key ≠ none) (hstack : key ∉ stack)
    (hreads : ∀ read ∈ s.readsOf key, s.Done (key :: stack) m read) :
    s.Coherent stack ((key, outcome) :: m) where
  declared k hk := by
    rcases Memo.knows_cons.1 hk with rfl | hk
    · exact hkey
    · exact h.declared k hk
  offStack k hk hknows := by
    rcases Memo.knows_cons.1 hknows with rfl | hknows
    · exact hstack hk
    · exact h.offStack k (List.mem_cons_of_mem key hk) hknows
  closed k hk read hread := by
    rcases Memo.knows_cons.1 hk with rfl | hk
    · exact (hreads read hread).pop
    · exact (h.closed k hk read hread).pop

theorem Coherent.visit (h : s.Coherent stack m) : s.Coherent stack (s.visit stack m key) := by
  induction stack, m, key using visit_induction (s := s) with
  | done stack m key hdone => rwa [visit_of_done hdone]
  | new stack m key hnew ih =>
    have hread : s.Coherent (key :: stack) (s.visitAll (key :: stack) m (s.readsOf key)) :=
      visitAll_induction (h.push fun hk => hnew (.inl hk)) fun m' hm' k _ => ih m' k hm'
    rw [visit_of_new hnew]
    exact hread.pop (fun hnone => hnew (.inr (.inr hnone))) (fun hmem => hnew (.inr (.inl hmem)))
      fun read hr => done_visitAll hr

theorem Coherent.visitAll (h : s.Coherent stack m) : s.Coherent stack (s.visitAll stack m keys) :=
  visitAll_induction h fun _ hm _ _ => hm.visit

/-- A property that is done and has no outcome is on the stack or not declared; in a coherent memo
it has none as long as it is. -/
theorem Coherent.not_knows (h : s.Coherent stack m)
    (hk : k ∈ stack ∨ s.declared? k = none) : ¬ m.Knows k := by
  intro hknows
  rcases hk with hk | hk
  · exact h.offStack k hk hknows
  · exact h.declared k hknows hk

theorem knows_visitAll (h : m.Knows k) : (s.visitAll stack m keys).Knows k :=
  visitAll_induction (P := fun m' => m'.Knows k) h fun _ hm _ _ => knows_visit hm

/-- An evaluation gives outcomes only within a set that reads leave through the stack alone. -/
theorem knows_of_visit {D : PropertyKey → Prop}
    (hD : ∀ k, D k → ∀ read ∈ s.readsOf k, D read ∨ read ∈ stack ∨ s.declared? read = none)
    (hkey : D key) (hk : (s.visit stack m key).Knows k) : m.Knows k ∨ D k := by
  induction stack, m, key using visit_induction (s := s) with
  | done stack m key hdone =>
    rw [visit_of_done hdone] at hk
    exact .inl hk
  | new stack m key hnew ih =>
    rw [visit_of_new hnew, Memo.knows_cons] at hk
    rcases hk with rfl | hk
    · exact .inr hkey
    · revert hk
      refine visitAll_induction (P := fun m' => m'.Knows k → m.Knows k ∨ D k) .inl ?_
      intro m' hm' read hread hknows
      rcases hD key hkey read hread with hin | hmem | hnone
      · refine (ih m' read (fun k' hk' r hr => ?_) hin hknows).elim hm' .inr
        exact (hD k' hk' r hr).imp_right (Or.imp_left (List.mem_cons_of_mem key))
      · rw [visit_of_done (.inr (.inl (List.mem_cons_of_mem key hmem)))] at hknows
        exact hm' hknows
      · rw [visit_of_done (.inr (.inr hnone))] at hknows
        exact hm' hknows

/-- The outcome of a property that is evaluated first. -/
def fresh (s : Scene) (key : PropertyKey) : Resolution := (s.visit [] [] key).answer key

/-- The outcomes that a memo has for properties of a set are those of evaluating them first. -/
def Agrees (s : Scene) (G : PropertyKey → Prop) (m : Memo) : Prop :=
  ∀ k, G k → m.Knows k → m.answer k = s.fresh k

theorem Agrees.of_visitAll (h : s.Agrees G (s.visitAll stack m keys)) : s.Agrees G m := by
  intro k hk hknows
  have hkept : (s.visitAll stack m keys).answer k = m.answer k :=
    answer_visitAll_of_done (.inl hknows)
  rw [← hkept]
  exact h k hk (knows_visitAll hknows)

theorem Agrees.of_cons {outcome : Resolution} (h : s.Agrees G ((key, outcome) :: m))
    (hkey : ¬ m.Knows key) : s.Agrees G m := by
  intro k hk hknows
  have hne : k ≠ key := by
    rintro rfl
    exact hkey hknows
  rw [← h k hk (Memo.knows_cons.2 (.inr hknows)), Memo.answer_cons_of_ne hne]

theorem Agrees.cons {outcome : Resolution} (h : s.Agrees G m)
    (hkey : G key → outcome = s.fresh key) : s.Agrees G ((key, outcome) :: m) := by
  intro k hk hknows
  by_cases hne : k = key
  · subst hne
    rw [Memo.answer_cons_self, hkey hk]
  · rw [Memo.answer_cons_of_ne hne]
    exact h k hk ((Memo.knows_cons.1 hknows).resolve_left hne)

/-- A memo with a history agrees with evaluating first, and has an outcome for all that another
memo has one for. -/
structure Covers (s : Scene) (G : PropertyKey → Prop) (m₁ m₂ : Memo) : Prop where
  agrees : s.Agrees G m₁
  knows : ∀ k, m₂.Knows k → m₁.Knows k

theorem Covers.visitAll {st₁ st₂ : List PropertyKey} (h : s.Covers G m₁ m₂)
    (hm : s.Coherent st₁ m₁) (hend : s.Agrees G (s.visitAll st₂ m₂ keys))
    (step : ∀ m₁ m₂, s.Covers G m₁ m₂ → s.Coherent st₁ m₁ → ∀ k ∈ keys,
      s.Agrees G (s.visit st₂ m₂ k) → s.Covers G (s.visit st₁ m₁ k) (s.visit st₂ m₂ k)) :
    s.Covers G (s.visitAll st₁ m₁ keys) (s.visitAll st₂ m₂ keys) := by
  induction keys generalizing m₁ m₂ with
  | nil => exact h
  | cons k keys ih =>
    rw [visitAll_cons] at hend
    rw [visitAll_cons, visitAll_cons]
    refine ih (step m₁ m₂ h hm k List.mem_cons_self hend.of_visitAll) hm.visit hend ?_
    exact fun m₁ m₂ h hm k hk => step m₁ m₂ h hm k (List.mem_cons_of_mem _ hk)

/-- What a history knows already is not evaluated again, and all that a run without the history
evaluates for it is known as well. -/
theorem Covers.visit_of_knows (hG : ∀ k, G k → ∀ read ∈ s.readsOf k, G read)
    (houter : ∀ k ∈ outer, ¬ G k) (h : s.Covers G m₁ m₂) (hm : s.Coherent (inner ++ outer) m₁)
    (hkey : G key) (hknown : m₁.Knows key) : s.Covers G m₁ (s.visit inner m₂ key) := by
  refine ⟨h.agrees, fun k hk => ?_⟩
  refine (knows_of_visit (D := fun k => G k ∧ m₁.Knows k) ?_ ⟨hkey, hknown⟩ hk).elim
    (h.knows k) And.right
  rintro k ⟨hk, hknows⟩ read hread
  have hin : G read := hG k hk read hread
  rcases hm.closed k hknows read hread with hr | hr | hr
  · exact .inl ⟨hin, hr⟩
  · exact .inr (.inl ((List.mem_append.1 hr).resolve_right fun hout => houter read hout hin))
  · exact .inr (.inr hr)

/-- What both runs have evaluated agrees with evaluating first, and what one of them has cut, the
other one has cut as well. -/
theorem Covers.answer_eq (h : s.Covers G m₁ m₂) (hm : s.Coherent (inner ++ outer) m₁)
    (hm₂ : s.Agrees G m₂) (hk : G k) (hdone : s.Done inner m₂ k) : m₁.answer k = m₂.answer k := by
  by_cases hknows : m₂.Knows k
  · rw [h.agrees k hk (h.knows k hknows), hm₂ k hk hknows]
  · have hcut := hdone.resolve_left hknows
    have hcut₁ := hm.not_knows (hcut.imp_left (List.mem_append_left outer))
    rw [Memo.answer_of_not_knows hcut₁, Memo.answer_of_not_knows hknows]

/-- An evaluation with a history runs along the same evaluation without one, and what it adds to
the memo agrees with evaluating first when the other one does. -/
theorem Covers.visit (hG : ∀ k, G k → ∀ read ∈ s.readsOf k, G read) (houter : ∀ k ∈ outer, ¬ G k)
    (h : s.Covers G m₁ m₂) (hm : s.Coherent (inner ++ outer) m₁) (hkey : G key)
    (hend : s.Agrees G (s.visit inner m₂ key)) :
    s.Covers G (s.visit (inner ++ outer) m₁ key) (s.visit inner m₂ key) := by
  induction inner, m₂, key using visit_induction (s := s) generalizing m₁ with
  | done inner m₂ key hdone =>
    have hdone₁ : s.Done (inner ++ outer) m₁ key :=
      hdone.imp (h.knows key) (Or.imp_left (List.mem_append_left outer))
    rwa [visit_of_done hdone, visit_of_done hdone₁]
  | new inner m₂ key hnew ih =>
    by_cases hknown : m₁.Knows key
    · rw [visit_of_done (.inl hknown)]
      exact h.visit_of_knows hG houter hm hkey hknown
    have hnew₁ : ¬ s.Done (inner ++ outer) m₁ key := by
      rintro (hk | hk | hk)
      · exact hknown hk
      · rcases List.mem_append.1 hk with hk | hk
        · exact hnew (.inr (.inl hk))
        · exact houter key hk hkey
      · exact hnew (.inr (.inr hk))
    rw [visit_of_new hnew] at hend
    have hoff : ¬ (s.visitAll (key :: inner) m₂ (s.readsOf key)).Knows key :=
      visitAll_induction (P := fun m => ¬ m.Knows key) (fun hk => hnew (.inl hk))
        fun m hm _ _ => not_knows_visit hm (.inl List.mem_cons_self)
    have hagrees := hend.of_cons hoff
    have hpush : s.Coherent (key :: inner ++ outer) m₁ := hm.push hknown
    have hread : s.Covers G (s.visitAll (key :: inner ++ outer) m₁ (s.readsOf key))
        (s.visitAll (key :: inner) m₂ (s.readsOf key)) :=
      h.visitAll hpush hagrees fun m₁ m₂ h hm k hk hend => ih m₂ k h hm (hG key hkey k hk) hend
    have hsame : s.valueOf (s.visitAll (key :: inner ++ outer) m₁ (s.readsOf key)).answer key =
        s.valueOf (s.visitAll (key :: inner) m₂ (s.readsOf key)).answer key :=
      valueOf_congr fun read hr =>
        hread.answer_eq hpush.visitAll hagrees (hG key hkey read hr) (done_visitAll hr)
    have hfresh := hend key hkey (Memo.knows_cons.2 (.inl rfl))
    rw [Memo.answer_cons_self] at hfresh
    rw [visit_of_new hnew₁, visit_of_new hnew]
    refine ⟨hread.agrees.cons fun _ => hsame.trans hfresh, fun k hk => ?_⟩
    exact Memo.knows_cons.2 ((Memo.knows_cons.1 hk).imp_right (hread.knows k))

/-- When evaluating one property of the set first gives no outcome but those of evaluating first,
no evaluation from a memo that agrees with them does. -/
theorem Agrees.visit (hG : ∀ k, G k → ∀ read ∈ s.readsOf k, G read)
    (hfirst : ∀ k, G k → s.Agrees G (s.visit [] [] k)) (hm : s.Coherent stack m)
    (hagrees : s.Agrees G m) (houter : ∀ k ∈ stack, ¬ G k) : s.Agrees G (s.visit stack m key) := by
  induction stack, m, key using visit_induction (s := s) with
  | done stack m key hdone => rwa [visit_of_done hdone]
  | new stack m key hnew ih =>
    by_cases hkey : G key
    · have hcovers : s.Covers G m [] := ⟨hagrees, fun k hk => absurd hk Memo.not_knows_nil⟩
      have hend : s.Covers G (s.visit ([] ++ stack) m key) (s.visit [] [] key) :=
        hcovers.visit hG houter hm hkey (hfirst key hkey)
      exact hend.agrees
    have houter' (k : PropertyKey) (hk : k ∈ key :: stack) : ¬ G k := by
      rcases List.mem_cons.1 hk with rfl | hk
      · exact hkey
      · exact houter k hk
    have hread : s.Coherent (key :: stack) (s.visitAll (key :: stack) m (s.readsOf key)) ∧
        s.Agrees G (s.visitAll (key :: stack) m (s.readsOf key)) := by
      refine visitAll_induction (P := fun m' => s.Coherent (key :: stack) m' ∧ s.Agrees G m')
        ⟨hm.push fun hk => hnew (.inl hk), hagrees⟩ fun m' hm' k _ => ?_
      exact ⟨hm'.1.visit, ih m' k hm'.1 hm'.2 houter'⟩
    rw [visit_of_new hnew]
    exact hread.2.cons fun hin => absurd hin hkey

/-- The outcome of a property after a history of evaluations. -/
def outcomeAfter (s : Scene) (log : Log) (history : List Query) (key : PropertyKey) : Resolution :=
  (Eval.nodeProperty s key (s.after log history)).1

/-- A property has one outcome, whatever was evaluated before. -/
def OrderFree (s : Scene) (key : PropertyKey) : Prop :=
  ∀ log log' history history', s.outcomeAfter log history key = s.outcomeAfter log' history' key

theorem outcomeAfter_eq (s : Scene) (log : Log) (history : List Query) (key : PropertyKey) :
    s.outcomeAfter log history key =
      (s.visit [] (s.visitAll [] [] (history.flatMap (Query.keys s))) key).answer key := by
  obtain ⟨hstack, hmemo⟩ := s.after_eq_visitAll log history
  obtain ⟨-, -, hval⟩ := (Eval.visits_nodeProperty s [] key).run _ hstack
  rw [outcomeAfter, hval, hmemo]
  rfl

/-- A settled property has one outcome. -/
theorem Settled.orderFree (h : s.Settled key) : s.OrderFree key := by
  intro log log' history history'
  rw [outcomeAfter, outcomeAfter, h.outcome_eq, h.outcome_eq]

/-- When one evaluation of the set before never changes an outcome of the set, no history does. -/
theorem outcomeAfter_eq_fresh (hG : ∀ k, G k → ∀ read ∈ s.readsOf k, G read)
    (hfirst : ∀ k, G k → s.Agrees G (s.visit [] [] k)) (hkey : G key) (log : Log)
    (history : List Query) : s.outcomeAfter log history key = s.fresh key := by
  have hm : s.Coherent [] (s.visitAll [] [] (history.flatMap (Query.keys s))) ∧
      s.Agrees G (s.visitAll [] [] (history.flatMap (Query.keys s))) := by
    refine visitAll_induction (P := fun m => s.Coherent [] m ∧ s.Agrees G m)
      ⟨coherent_nil, fun k _ hk => absurd hk Memo.not_knows_nil⟩ fun m hm k _ => ?_
    exact ⟨hm.1.visit, hm.2.visit hG hfirst hm.1 (List.forall_mem_nil _)⟩
  have hagrees : s.Agrees G (s.visit [] (s.visitAll [] [] (history.flatMap (Query.keys s))) key) :=
    hm.2.visit hG hfirst hm.1 (List.forall_mem_nil _)
  rw [outcomeAfter_eq]
  by_cases hknows : (s.visit [] (s.visitAll [] [] (history.flatMap (Query.keys s))) key).Knows key
  · exact hagrees key hkey hknows
  · have hnone : s.declared? key = none :=
      (done_visit.resolve_left hknows).resolve_left List.not_mem_nil
    rw [Memo.answer_of_not_knows hknows, fresh, visit_of_done (.inr (.inr hnone)),
      Memo.answer_of_not_knows Memo.not_knows_nil]

/-- All properties that a property leads to have one outcome each exactly if none of them, when it
is evaluated before, changes the outcome of another; settled properties always have one. -/
theorem orderFree_iff (s : Scene) (key : PropertyKey) :
    ((∀ k, s.LeadsTo key k → s.OrderFree k) ↔
      ∀ first k, s.LeadsTo key first → s.LeadsTo key k → ∀ log,
        s.outcomeAfter log [.property first] k = s.outcomeAfter log [] k) ∧
    (s.Settled key → s.OrderFree key) := by
  refine ⟨⟨fun h first k _ hk log => h k hk log log [.property first] [], fun h k hk => ?_⟩,
    Settled.orderFree⟩
  have hG (k : PropertyKey) (hk : s.LeadsTo key k) (read : PropertyKey)
      (hread : read ∈ s.readsOf k) : s.LeadsTo key read := hk.tail hread
  have hfirst (first : PropertyKey) (hin : s.LeadsTo key first) :
      s.Agrees (s.LeadsTo key) (s.visit [] [] first) := by
    intro k hk hknows
    have hone := h first k hin hk (Log.start .info false)
    rw [outcomeAfter_eq, outcomeAfter_eq] at hone
    have hkept : (s.visit [] (s.visit [] [] first) k).answer k = (s.visit [] [] first).answer k :=
      answer_visit hknows
    rw [← hkept]
    exact hone
  intro log log' history history'
  rw [outcomeAfter_eq_fresh hG hfirst hk, outcomeAfter_eq_fresh hG hfirst hk]

/-- Two nodes with properties that read each other behind a text of their own. -/
def facing : Scene where
  topology := {
    name := "facing"
    nodes := [
      ⟨"a", "N", none, none,
        .ofEntries [("x", .concat [.scalar "a", .call ⟨"get_property", ["b", "y"]⟩])],
        [], [], [], []⟩,
      ⟨"b", "N", none, none,
        .ofEntries [("y", .concat [.scalar "b", .call ⟨"get_property", ["a", "x"]⟩])],
        [], [], [], []⟩]
    groups := []
    dependencies := []
    archive := none }
  profiles := []

/-- Evaluated first, the one cuts the other behind its text; evaluated after the other, it is what
was cut then. -/
theorem not_orderFree_facing : ¬ facing.OrderFree ⟨"b", "y"⟩ ∧
    facing.outcomeAfter (.start .error false) [] ⟨"b", "y"⟩ = .resolved (.str "ba") ∧
    facing.outcomeAfter (.start .error false) [.property ⟨"a", "x"⟩] ⟨"b", "y"⟩ =
      .resolved (.str "b") := by
  have hfirst : facing.outcomeAfter (.start .error false) [] ⟨"b", "y"⟩ =
      .resolved (.str "ba") := by
    decide +kernel
  have hafter : facing.outcomeAfter (.start .error false) [.property ⟨"a", "x"⟩] ⟨"b", "y"⟩ =
      .resolved (.str "b") := by
    decide +kernel
  refine ⟨fun hfree => ?_, hfirst, hafter⟩
  have hsame := hfree (.start .error false) (.start .error false) [] [.property ⟨"a", "x"⟩]
  rw [hfirst, hafter] at hsame
  revert hsame
  decide

end Scene

end DeployPlan
