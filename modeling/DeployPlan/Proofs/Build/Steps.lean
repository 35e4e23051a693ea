import DeployPlan.Build.Basic

/-!
# Builds in steps

A build that succeeds went through its steps in turn, each of which succeeded; evaluations inside a
build always succeed.
-/
namespace DeployPlan

section

variable {m : Type → Type} [Monad m] {α β γ : Type}

/-- Runs in turn depend on the runs for the items only. -/
theorem mapM_congr [LawfulMonad m] {f g : α → m β} {as : List α} (h : ∀ a ∈ as, f a = g a) :
    as.mapM f = as.mapM g := by
  induction as with
  | nil => rfl
  | cons a as ih =>
    rw [List.forall_mem_cons] at h
    rw [List.mapM_cons, List.mapM_cons, h.1, ih h.2]

theorem foldlM_congr {f g : β → α → m β} {as : List α} (h : ∀ b, ∀ a ∈ as, f b a = g b a) (b : β) :
    as.foldlM f b = as.foldlM g b := by
  induction as generalizing b with
  | nil => rfl
  | cons a as ih =>
    rw [List.foldlM_cons, List.foldlM_cons, h b a List.mem_cons_self]
    exact bind_congr fun b => ih (fun b a ha => h b a (List.mem_cons_of_mem _ ha)) b

/-- A map that commutes with each run commutes with the runs in turn. -/
theorem foldlM_hom [LawfulMonad m] {F : β → γ} {f : β → α → m β} {g : γ → α → m γ}
    (h : ∀ b a, g (F b) a = F <$> f b a) (as : List α) (b : β) :
    as.foldlM g (F b) = F <$> as.foldlM f b := by
  induction as generalizing b with
  | nil => simp
  | cons a as ih =>
    rw [List.foldlM_cons, List.foldlM_cons, h, bind_map_left, map_bind]
    exact bind_congr fun b => ih b

end

theorem exists_ok_iff {α : Type} {r : Except Failure α} :
    (∃ a, r = .ok a) ↔ ∀ f, r ≠ .error f := by
  cases r <;> simp

theorem eq_ok_of_toOption {α : Type} {r : Except Failure α} {a : α} (h : r.toOption = some a) :
    r = .ok a := by
  cases r with
  | error f => cases h
  | ok b => exact congrArg Except.ok (Option.some.inj h)

theorem exists_ok_of_isOk {α : Type} {r : Except Failure α} (h : r.isOk = true) :
    ∃ a, r = .ok a := by
  cases r with
  | error f => cases h
  | ok a => exact ⟨a, rfl⟩

/-- A failure is known when it is known without what would be there otherwise. -/
theorem eq_error_of_map {α : Type} {r : Except Failure α} {f : Failure}
    (h : r.map (fun _ => ()) = .error f) : r = .error f := by
  cases r with
  | ok a => cases h
  | error e => exact congrArg Except.error (Except.error.inj h)

namespace Build

variable {α β : Type}

theorem fail_bind (f : Failure) (next : α → Build β) : fail f >>= next = fail f := rfl

/-- A build with its result taken further has the outcome taken further, and the same pass. -/
theorem map_run (f : α → β) (x : Build α) (p : Pass) : (f <$> x) p = ((x p).1.map f, (x p).2) := by
  have hrun : (x >>= fun a => (pure (f a) : Build β)) p =
      ExceptT.bindCont (fun a => (pure (f a) : Build β)) (x p).1 (x p).2 := rfl
  rw [← bind_pure_comp, hrun]
  cases (x p).1 <;> rfl

/-- A build of two steps succeeds when both do, the second one in the pass that the first leaves. -/
theorem bind_eq_ok {x : Build α} {f : α → Build β} {p p' : Pass} {b : β}
    (h : (x >>= f) p = (.ok b, p')) : ∃ a q, x p = (.ok a, q) ∧ f a q = (.ok b, p') := by
  have hrun : (x >>= f) p = ExceptT.bindCont f (x p).1 (x p).2 := rfl
  rw [hrun] at h
  cases hx : (x p).1 with
  | error e =>
    rw [hx] at h
    cases h
  | ok a =>
    rw [hx] at h
    exact ⟨a, (x p).2, Prod.ext hx rfl, h⟩

/-- A build of two steps fails when the first one does, or the second one in the pass that the first
leaves. -/
theorem bind_eq_error {x : Build α} {f : α → Build β} {p p' : Pass} {e : Failure}
    (h : (x >>= f) p = (.error e, p')) :
    x p = (.error e, p') ∨ ∃ a q, x p = (.ok a, q) ∧ f a q = (.error e, p') := by
  have hrun : (x >>= f) p = ExceptT.bindCont f (x p).1 (x p).2 := rfl
  rw [hrun] at h
  cases hx : (x p).1 with
  | error e' =>
    rw [hx] at h
    cases h
    exact .inl (Prod.ext hx rfl)
  | ok a =>
    rw [hx] at h
    exact .inr ⟨a, (x p).2, Prod.ext hx rfl, h⟩

theorem bind_of_ok {x : Build α} {f : α → Build β} {p q : Pass} {a : α} (h : x p = (.ok a, q)) :
    (x >>= f) p = f a q := by
  have hrun : (x >>= f) p = ExceptT.bindCont f (x p).1 (x p).2 := rfl
  rw [hrun, h]
  rfl

theorem bind_of_error {x : Build α} {f : α → Build β} {p p' : Pass} {e : Failure}
    (h : x p = (.error e, p')) : (x >>= f) p = (.error e, p') := by
  have hrun : (x >>= f) p = ExceptT.bindCont f (x p).1 (x p).2 := rfl
  rw [hrun, h]
  rfl

theorem lift_run (e : Eval α) (p : Pass) : (liftM e : Build α) p = (.ok (e p).1, (e p).2) := rfl

theorem lift_eq_ok {e : Eval α} {p p' : Pass} {a : α} (h : (liftM e : Build α) p = (.ok a, p')) :
    a = (e p).1 ∧ p' = (e p).2 := by
  rw [lift_run] at h
  cases h
  exact ⟨rfl, rfl⟩

theorem eq_ok_of_isOk {x : Build α} {p : Pass} (h : (x p).1.isOk = true) :
    ∃ a, x p = (.ok a, (x p).2) := by
  obtain ⟨a, ha⟩ := exists_ok_of_isOk h
  exact ⟨a, Prod.ext ha rfl⟩

/-- Tags change what is recorded only. -/
theorem tagged_run (tags : Fields) (x : Build α) (p : Pass) : ∃ log log', tagged tags x p =
    ((x { p with log := log }).1, { (x { p with log := log }).2 with log := log' }) := by
  unfold tagged
  split
  · exact ⟨_, _, rfl⟩
  · next log _ => exact ⟨log, _, rfl⟩

theorem map_tagged (f : α → β) (tags : Fields) (x : Build α) :
    f <$> tagged tags x = tagged tags (f <$> x) := by
  funext p
  rw [map_run, tagged, tagged]
  split
  · rw [map_run]
  · rw [map_run]
    rfl

theorem tagged_eq_ok {tags : Fields} {x : Build α} {p p' : Pass} {a : α}
    (h : tagged tags x p = (.ok a, p')) : ∃ q q', x q = (.ok a, q') := by
  obtain ⟨log, log', htagged⟩ := tagged_run tags x p
  rw [htagged] at h
  exact ⟨_, _, Prod.ext (Prod.mk.inj h).1 rfl⟩

end Build

end DeployPlan
