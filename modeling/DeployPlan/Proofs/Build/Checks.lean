import DeployPlan.Proofs.Build.Steps
import DeployPlan.Proofs.Evaluation.Pass

/-!
# Builds that check

A build evaluates properties on the way to the end of its pass, where every outcome is still what it
was on the way. So it can be told from the end what a build checks: it fails with the faults that
are there then, and succeeds when there are none.
-/
namespace DeployPlan

/-- A pass is on its way to a last one: both evaluate nothing at present, and reading the properties
takes the memo of the one to that of the other. -/
structure Pass.Reaches (s : Scene) (keys : List PropertyKey) (p last : Pass) : Prop where
  rests : p.resolving = []
  ends : last.resolving = []
  memo : s.visitAll [] p.memo keys = last.memo

section

variable {α : Type} {s : Scene} {last p : Pass} {keys rest : List PropertyKey}
  {value : (PropertyKey → Resolution) → α} {x : Eval α}

/-- What has been read on the way is done at the end. -/
theorem Pass.Reaches.done (h : p.Reaches s (keys ++ rest) last) {k : PropertyKey} (hk : k ∈ keys) :
    s.Done [] last.memo k := by
  rw [← h.memo]
  exact Scene.done_visitAll (List.mem_append_left rest hk)

/-- An evaluation takes a pass further. Its outcome is the one that it has at the end, and is made
of what is remembered there. -/
theorem Eval.Visits.reaches (hx : Eval.Visits s [] keys value x)
    (h : p.Reaches s (keys ++ rest) last) :
    (x p).2.Reaches s rest last ∧ (x p).1 = (x last).1 ∧
      (x p).1 = value (Memo.answer last.memo) := by
  obtain ⟨hstack, hmemo, hval⟩ := hx.run p h.rests
  obtain ⟨-, -, hlast⟩ := hx.run last h.ends
  have hall := h.memo
  rw [Scene.visitAll_append] at hall
  have hanswer : (x p).1 = value (Memo.answer last.memo) := by
    rw [hval]
    refine hx.congr _ _ fun k hk => ?_
    rw [← hall]
    exact (Scene.answer_visitAll_of_done (Scene.done_visitAll hk)).symm
  refine ⟨⟨hstack, h.ends, by rw [hmemo, hall]⟩, ?_, hanswer⟩
  rw [hanswer, hlast]
  exact hx.congr _ _ fun k hk => (Scene.answer_visitAll_of_done (h.done hk)).symm

end

namespace Build

/-- On the way to a last pass a build reads the properties. It fails with one of the faults; when it
succeeds there is none, and its result is as told. -/
structure Checks {α : Type} (s : Scene) (last : Pass) (keys : List PropertyKey)
    (fault : Failure → Prop) (good : α → Prop) (x : Build α) : Prop where
  ok : ∀ {p p' : Pass} {a : α} {rest : List PropertyKey}, p.Reaches s (keys ++ rest) last →
    x p = (.ok a, p') → p'.Reaches s rest last ∧ good a ∧ ∀ f, ¬ fault f
  error : ∀ {p p' : Pass} {f : Failure} {rest : List PropertyKey},
    p.Reaches s (keys ++ rest) last → x p = (.error f, p') → fault f

namespace Checks

variable {α β : Type} {s : Scene} {last : Pass} {keys others : List PropertyKey}
  {fault fault' : Failure → Prop} {good : α → Prop} {good' : β → Prop} {x : Build α}
  {f : α → Build β}

theorem pure {a : α} (h : good a) : Checks s last [] (fun _ => False) good (pure a) where
  ok hp hrun := by
    cases hrun
    exact ⟨hp, h, fun _ hf => hf⟩
  error _ hrun := by cases hrun

theorem ofExcept (r : Except Failure α) :
    Checks s last [] (r = .error ·) (r = .ok ·) (ofExcept r) where
  ok hp hrun := by
    rw [ofExcept_run] at hrun
    cases hrun
    exact ⟨hp, rfl, fun f hf => by cases hf⟩
  error _ hrun := by
    rw [ofExcept_run] at hrun
    cases hrun
    rfl

/-- A build that fails in every pass may leave everything unread. -/
theorem fail {e : Failure} (h : fault e) : Checks s last keys fault good (fail e) where
  ok _ hrun := by cases hrun
  error _ hrun := by
    cases hrun
    exact h

/-- The faults may be told in another way that covers each of them, and tells none where none is. -/
theorem recount (h : Checks s last keys fault good x) (hfault : ∀ f, fault f → fault' f)
    (hnone : (∀ f, ¬ fault f) → ∀ f, ¬ fault' f) : Checks s last keys fault' good x where
  ok hp hrun := by
    obtain ⟨hp', ha, hsafe⟩ := h.ok hp hrun
    exact ⟨hp', ha, hnone hsafe⟩
  error hp hrun := hfault _ (h.error hp hrun)

theorem retell (h : Checks s last keys fault good x) (hfault : ∀ f, fault f ↔ fault' f) :
    Checks s last keys fault' good x :=
  h.recount (fun f => (hfault f).1) fun hnone f hf => hnone f ((hfault f).2 hf)

theorem weaken {good'' : α → Prop} (h : Checks s last keys fault good x)
    (hgood : ∀ a, good a → good'' a) : Checks s last keys fault good'' x where
  ok hp hrun := by
    obtain ⟨hp', ha, hnone⟩ := h.ok hp hrun
    exact ⟨hp', hgood _ ha, hnone⟩
  error hp hrun := h.error hp hrun

/-- A build that goes on after another one has the faults of both. -/
theorem bind (hx : Checks s last keys fault good x)
    (hf : ∀ a, good a → Checks s last others fault' good' (f a)) :
    Checks s last (keys ++ others) (fun e => fault e ∨ fault' e) good' (x >>= f) where
  ok hp hrun := by
    obtain ⟨a, q, ha, hb⟩ := bind_eq_ok hrun
    rw [List.append_assoc] at hp
    obtain ⟨hq, hgood, hnone⟩ := hx.ok hp ha
    obtain ⟨hp', hgood', hnone'⟩ := (hf a hgood).ok hq hb
    exact ⟨hp', hgood', fun e he => he.elim (hnone e) (hnone' e)⟩
  error hp hrun := by
    rw [List.append_assoc] at hp
    rcases bind_eq_error hrun with hx' | ⟨a, q, ha, hb⟩
    · exact .inl (hx.error hp hx')
    · obtain ⟨hq, hgood, -⟩ := hx.ok hp ha
      exact .inr ((hf a hgood).error hq hb)

theorem readOn (hx : Checks s last keys fault good x)
    (hf : ∀ a, good a → Checks s last others (fun _ => False) good' (f a)) :
    Checks s last (keys ++ others) fault good' (x >>= f) :=
  (hx.bind hf).retell fun _ => by rw [or_false]

/-- A build that goes on without reading or failing has the same faults. -/
theorem andThen (hx : Checks s last keys fault good x)
    (hf : ∀ a, good a → Checks s last [] (fun _ => False) good' (f a)) :
    Checks s last keys fault good' (x >>= f) := by
  have hall := hx.readOn hf
  rwa [List.append_nil] at hall

/-- An evaluation never fails. The build goes on with an outcome that the evaluation also has at the
end, and that is made of what is remembered there. -/
theorem eval_bind {value : (PropertyKey → Resolution) → α} {e : Eval α}
    (he : Eval.Visits s [] keys value e)
    (hf : ∀ a, a = (e last).1 → a = value (Memo.answer last.memo) →
      Checks s last others fault' good' (f a)) :
    Checks s last (keys ++ others) fault' good' ((liftM e : Build α) >>= f) := by
  have hlift : Checks s last keys (fun _ => False)
      (fun a => a = (e last).1 ∧ a = value (Memo.answer last.memo)) (liftM e : Build α) := by
    constructor
    · intro p p' a rest hp hrun
      obtain ⟨rfl, rfl⟩ := lift_eq_ok hrun
      obtain ⟨hp', hlast, hanswer⟩ := he.reaches hp
      exact ⟨hp', ⟨hlast, hanswer⟩, fun _ hf => hf⟩
    · intro p p' f rest _ hrun
      rw [lift_run] at hrun
      cases hrun
  exact (hlift.bind fun a ha => hf a ha.1 ha.2).retell fun _ => by rw [false_or]

/-- An evaluation that reads nothing leaves everything to what comes after it. -/
theorem quiet_bind {value : (PropertyKey → Resolution) → α} {e : Eval α}
    (he : Eval.Visits s [] [] value e)
    (hf : ∀ a, a = (e last).1 → a = value (Memo.answer last.memo) →
      Checks s last keys fault' good' (f a)) :
    Checks s last keys fault' good' ((liftM e : Build α) >>= f) :=
  eval_bind he hf

theorem eval_andThen {value : (PropertyKey → Resolution) → α} {e : Eval α}
    (he : Eval.Visits s [] keys value e)
    (hf : ∀ a, a = (e last).1 → a = value (Memo.answer last.memo) →
      Checks s last [] fault' good' (f a)) :
    Checks s last keys fault' good' ((liftM e : Build α) >>= f) := by
  have hall := eval_bind he hf
  rwa [List.append_nil] at hall

/-- A build for several things in turn has the faults of all of them, and a result for each. -/
theorem mapM {f : α → Build β} {keys : α → List PropertyKey} {fault : α → Failure → Prop}
    {good : α → β → Prop} {as : List α}
    (h : ∀ a ∈ as, Checks s last (keys a) (fault a) (good a) (f a)) :
    Checks s last (as.flatMap keys) (fun e => ∃ a ∈ as, fault a e) (List.Forall₂ good as)
      (as.mapM f) := by
  induction as with
  | nil => exact (Checks.pure .nil).retell (by simp)
  | cons a as ih =>
    rw [List.forall_mem_cons] at h
    rw [List.mapM_cons, List.flatMap_cons]
    refine (h.1.bind fun b hb => (ih h.2).andThen fun bs hbs => Checks.pure ?_).retell ?_
    · exact .cons hb hbs
    · exact fun e => by rw [List.exists_mem_cons_iff]

/-- What is known of every result of a build is known of those that are checked. -/
theorem with_result {good'' : α → Prop} (h : Checks s last keys fault good x)
    (hgood : ∀ {p p' : Pass} {a : α}, x p = (.ok a, p') → good'' a) :
    Checks s last keys fault (fun a => good a ∧ good'' a) x where
  ok hp hrun := by
    obtain ⟨hp', ha, hnone⟩ := h.ok hp hrun
    exact ⟨hp', ⟨ha, hgood hrun⟩, hnone⟩
  error hp hrun := h.error hp hrun

theorem tagged {tags : Fields} (h : Checks s last keys fault good x) :
    Checks s last keys fault good (tagged tags x) where
  ok {p p' a rest} hp hrun := by
    obtain ⟨log, log', htagged⟩ := tagged_run tags x p
    rw [htagged] at hrun
    obtain ⟨ha, rfl⟩ := Prod.mk.inj hrun
    obtain ⟨hp', hgood, hnone⟩ := h.ok (p := { p with log := log }) ⟨hp.rests, hp.ends, hp.memo⟩
      (Prod.ext ha rfl)
    exact ⟨⟨hp'.rests, hp'.ends, hp'.memo⟩, hgood, hnone⟩
  error {p p' f rest} hp hrun := by
    obtain ⟨log, log', htagged⟩ := tagged_run tags x p
    rw [htagged] at hrun
    exact h.error (p := { p with log := log }) ⟨hp.rests, hp.ends, hp.memo⟩
      (Prod.ext (Prod.mk.inj hrun).1 rfl)

end Checks

end Build

end DeployPlan
