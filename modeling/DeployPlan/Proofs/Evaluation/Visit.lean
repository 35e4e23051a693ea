import DeployPlan.Proofs.Evaluation.Plain

/-!
# Visits of a memo

An evaluation of a property changes a memo as a depth-first search changes its marks: a property
that is new and not being evaluated is evaluated after all that it reads, with itself on the stack.
The log plays no part, and the outcome is what the memo then holds.
-/
namespace DeployPlan

/-- The outcomes of the properties evaluated so far, the latest first. -/
abbrev Memo := List (PropertyKey × Resolution)

namespace Memo

def Knows (m : Memo) (key : PropertyKey) : Prop := (m.lookup key).isSome

instance (m : Memo) (key : PropertyKey) : Decidable (m.Knows key) :=
  inferInstanceAs (Decidable (_ = true))

/-- The outcome of a property in the memo, unresolved when it has none. -/
def answer (m : Memo) (key : PropertyKey) : Resolution := (m.lookup key).getD .unresolved

variable {m : Memo} {key k : PropertyKey} {outcome : Resolution}

@[simp] theorem not_knows_nil : ¬ Memo.Knows [] key := by simp [Knows]

theorem lookup_cons_of_ne (h : key ≠ k) :
    List.lookup key ((k, outcome) :: m) = List.lookup key m := by
  simp only [List.lookup_cons, beq_eq_false_iff_ne.2 h]

@[simp] theorem knows_cons : Memo.Knows ((k, outcome) :: m) key ↔ key = k ∨ m.Knows key := by
  by_cases h : key = k
  · subst h
    simp only [Knows, List.lookup_cons_self, Option.isSome_some, true_or]
  · simp only [Knows, lookup_cons_of_ne h, h, false_or]

@[simp] theorem answer_cons_self : Memo.answer ((key, outcome) :: m) key = outcome := by
  rw [answer, List.lookup_cons_self, Option.getD_some]

theorem answer_cons_of_ne (h : key ≠ k) : Memo.answer ((k, outcome) :: m) key = m.answer key := by
  rw [answer, lookup_cons_of_ne h, answer]

theorem lookup_of_not_knows (h : ¬ m.Knows key) : m.lookup key = none := by
  simpa only [Knows, Bool.not_eq_true, Option.isSome_eq_false_iff,
    Option.isNone_iff_eq_none] using h

theorem answer_of_not_knows (h : ¬ m.Knows key) : m.answer key = .unresolved := by
  rw [answer, lookup_of_not_knows h, Option.getD_none]

theorem lookup_of_knows (h : m.Knows key) : m.lookup key = some (m.answer key) := by
  obtain ⟨outcome, ho⟩ := Option.isSome_iff_exists.1 h
  rw [answer, ho, Option.getD_some]

end Memo

namespace Scene

/-- An evaluation of the property leaves the memo as it is. -/
def Done (s : Scene) (stack : List PropertyKey) (m : Memo) (key : PropertyKey) : Prop :=
  m.Knows key ∨ key ∈ stack ∨ s.declared? key = none

instance (s : Scene) (stack : List PropertyKey) (m : Memo) (key : PropertyKey) :
    Decidable (s.Done stack m key) :=
  decidable_of_iff (m.Knows key ∨ key ∈ stack ∨ (s.declared? key).isNone) <| by
    rw [Done, Option.isNone_iff_eq_none]

theorem undone_cons_lt_of_new {s : Scene} {stack : List PropertyKey} {m : Memo}
    {key : PropertyKey} (h : ¬ s.Done stack m key) : s.undone (key :: stack) < s.undone stack :=
  undone_cons_lt (fun hnone => h (.inr (.inr hnone))) fun hmem => h (.inr (.inl hmem))

/-- The memo after a property has been evaluated, those on the stack being evaluated. -/
def visit (s : Scene) (stack : List PropertyKey) (m : Memo) (key : PropertyKey) : Memo :=
  if _h : s.Done stack m key then m
  else
    let read := (s.readsOf key).foldl (fun m k => s.visit (key :: stack) m k) m
    (key, s.valueOf read.answer key) :: read
termination_by s.undone stack
decreasing_by exact undone_cons_lt_of_new _h

/-- The memo after properties have been evaluated in turn. -/
def visitAll (s : Scene) (stack : List PropertyKey) (m : Memo) (keys : List PropertyKey) : Memo :=
  keys.foldl (s.visit stack) m

variable {s : Scene} {stack : List PropertyKey} {m : Memo} {key k : PropertyKey}
  {keys : List PropertyKey}

@[simp] theorem visitAll_nil : s.visitAll stack m [] = m := rfl

@[simp] theorem visitAll_cons :
    s.visitAll stack m (key :: keys) = s.visitAll stack (s.visit stack m key) keys := rfl

theorem visitAll_append {others : List PropertyKey} : s.visitAll stack m (keys ++ others) =
    s.visitAll stack (s.visitAll stack m keys) others := List.foldl_append

theorem visit_of_done (h : s.Done stack m key) : s.visit stack m key = m := by
  rw [visit, dif_pos h]

theorem visit_of_new (h : ¬ s.Done stack m key) : s.visit stack m key =
    (key, s.valueOf (s.visitAll (key :: stack) m (s.readsOf key)).answer key) ::
      s.visitAll (key :: stack) m (s.readsOf key) := by
  rw [visit, dif_neg h]
  rfl

/-- Induction along an evaluation: a property that is new is evaluated after all that it reads. -/
theorem visit_induction {P : List PropertyKey → Memo → PropertyKey → Prop}
    (done : ∀ stack m key, s.Done stack m key → P stack m key)
    (new : ∀ stack m key, ¬ s.Done stack m key → (∀ m k, P (key :: stack) m k) → P stack m key)
    (stack : List PropertyKey) (m : Memo) (key : PropertyKey) : P stack m key := by
  by_cases h : s.Done stack m key
  · exact done stack m key h
  · refine new stack m key h fun m' k => ?_
    have hlt := undone_cons_lt_of_new h
    exact visit_induction done new (key :: stack) m' k
termination_by s.undone stack

theorem visitAll_induction {P : Memo → Prop} (hm : P m)
    (step : ∀ m, P m → ∀ k ∈ keys, P (s.visit stack m k)) : P (s.visitAll stack m keys) := by
  induction keys generalizing m with
  | nil => exact hm
  | cons k keys ih =>
    rw [visitAll_cons]
    refine ih (step m hm k List.mem_cons_self) fun m' hm' k' hk' => ?_
    exact step m' hm' k' (List.mem_cons_of_mem k hk')

theorem lookup_visit (h : m.Knows k) : (s.visit stack m key).lookup k = m.lookup k := by
  induction stack, m, key using visit_induction (s := s) with
  | done stack m key hdone => rw [visit_of_done hdone]
  | new stack m key hnew ih =>
    have hread : (s.visitAll (key :: stack) m (s.readsOf key)).lookup k = m.lookup k := by
      refine visitAll_induction (P := fun m' => m'.lookup k = m.lookup k) rfl fun m' hm' r _ => ?_
      have hknows : Memo.Knows m' k := by rwa [Memo.Knows, hm']
      rw [ih m' r hknows, hm']
    have hne : k ≠ key := by
      rintro rfl
      exact hnew (.inl h)
    rw [visit_of_new hnew, Memo.lookup_cons_of_ne hne, hread]

theorem answer_visit (h : m.Knows k) : (s.visit stack m key).answer k = m.answer k := by
  rw [Memo.answer, lookup_visit h, Memo.answer]

theorem knows_visit (h : m.Knows k) : (s.visit stack m key).Knows k := by
  rwa [Memo.Knows, lookup_visit h]

/-- An evaluation gives no outcome to a property on the stack, nor to one that is not declared. -/
theorem not_knows_visit (hm : ¬ m.Knows k) (hk : k ∈ stack ∨ s.declared? k = none) :
    ¬ (s.visit stack m key).Knows k := by
  induction stack, m, key using visit_induction (s := s) with
  | done stack m key hdone => rwa [visit_of_done hdone]
  | new stack m key hnew ih =>
    have hread : ¬ (s.visitAll (key :: stack) m (s.readsOf key)).Knows k :=
      visitAll_induction (P := fun m' => ¬ m'.Knows k) hm fun m' hm' r _ =>
        ih m' r hm' (hk.imp_left (List.mem_cons_of_mem key))
    rw [visit_of_new hnew, Memo.knows_cons, not_or]
    refine ⟨?_, hread⟩
    rintro rfl
    exact hnew (.inr hk)

/-- A property that is done keeps what the memo has for it. -/
theorem answer_visit_of_done (h : s.Done stack m k) :
    (s.visit stack m key).answer k = m.answer k := by
  by_cases hk : m.Knows k
  · exact answer_visit hk
  · have hrest := h.resolve_left hk
    rw [Memo.answer_of_not_knows hk, Memo.answer_of_not_knows (not_knows_visit hk hrest)]

theorem Done.visit (h : s.Done stack m k) : s.Done stack (s.visit stack m key) k :=
  h.imp_left knows_visit

theorem done_visit : s.Done stack (s.visit stack m key) key := by
  by_cases h : s.Done stack m key
  · exact h.visit
  · rw [visit_of_new h]
    exact .inl (Memo.knows_cons.2 (.inl rfl))

theorem Done.visitAll (h : s.Done stack m k) : s.Done stack (s.visitAll stack m keys) k :=
  visitAll_induction (P := fun m => s.Done stack m k) h fun _ hm _ _ => hm.visit

theorem answer_visitAll_of_done (h : s.Done stack m k) :
    (s.visitAll stack m keys).answer k = m.answer k := by
  have hboth : s.Done stack (s.visitAll stack m keys) k ∧
      (s.visitAll stack m keys).answer k = m.answer k := by
    refine visitAll_induction (P := fun m' => s.Done stack m' k ∧ m'.answer k = m.answer k)
      ⟨h, rfl⟩ fun m' hm' _ _ => ?_
    exact ⟨hm'.1.visit, (answer_visit_of_done hm'.1).trans hm'.2⟩
  exact hboth.2

theorem done_visitAll (h : k ∈ keys) : s.Done stack (s.visitAll stack m keys) k := by
  induction keys generalizing m with
  | nil => cases h
  | cons first keys ih =>
    rw [visitAll_cons]
    rcases List.mem_cons.1 h with rfl | h
    · exact done_visit.visitAll
    · exact ih h

end Scene

end DeployPlan
