import Mathlib.Data.List.Forall2

/-!
# Related lists and options

What is read of two lists whose items are related one by one, or found in them, is related as well.
-/
namespace DeployPlan

variable {α β : Type} {R : α → β → Prop}

theorem rel_cases {o : Option α} {o' : Option β} (h : Option.Rel R o o') :
    (o = none ∧ o' = none) ∨ ∃ a b, o = some a ∧ o' = some b ∧ R a b := by
  cases h with
  | none => exact .inl ⟨rfl, rfl⟩
  | some hab => exact .inr ⟨_, _, rfl, rfl, hab⟩

theorem rel_imp {S : α → β → Prop} {o : Option α} {o' : Option β} (h : Option.Rel R o o')
    (hRS : ∀ a b, R a b → S a b) : Option.Rel S o o' := by
  cases h with
  | none => exact .none
  | some hab => exact .some (hRS _ _ hab)

theorem rel_or {o p : Option α} {o' p' : Option β} (ho : Option.Rel R o o')
    (hp : Option.Rel R p p') : Option.Rel R (o.or p) (o'.or p') := by
  cases ho with
  | none => exact hp
  | some hab => exact .some hab

theorem rel_find? {as : List α} {bs : List β} {p : α → Bool} {q : β → Bool}
    (h : List.Forall₂ R as bs) (hpq : ∀ a b, R a b → q b = p a) :
    Option.Rel R (as.find? p) (bs.find? q) := by
  induction h with
  | nil => exact .none
  | @cons a b _ _ hab _ ih =>
    rw [List.find?_cons, List.find?_cons, hpq a b hab]
    cases p a with
    | true => exact .some hab
    | false => exact ih

theorem isEmpty_eq_of_forall₂ {as : List α} {bs : List β} (h : List.Forall₂ R as bs) :
    bs.isEmpty = as.isEmpty := by
  cases h <;> rfl

theorem map_eq_of_forall₂ {γ : Type} {f : α → γ} {g : β → γ} {as : List α} {bs : List β}
    (h : List.Forall₂ R as bs) (hR : ∀ a b, R a b → g b = f a) : bs.map g = as.map f := by
  induction h with
  | nil => rfl
  | cons hab _ ih => rw [List.map_cons, List.map_cons, hR _ _ hab, ih]

theorem forall_of_forall₂ {good : β → Prop} {as : List α} {bs : List β}
    (h : List.Forall₂ R as bs) (hR : ∀ a b, R a b → good b) : ∀ b ∈ bs, good b := by
  induction h with
  | nil => exact List.forall_mem_nil _
  | cons hab _ ih => exact List.forall_mem_cons.2 ⟨hR _ _ hab, ih⟩

end DeployPlan
