import DeployPlan.Failure
import DeployPlan.Topology.Basic
import Mathlib.Data.List.Forall2
import Mathlib.Data.List.Perm.Basic

/-!
# Topologies alike in all but the order of data

The data of a policy is a map, whose order means nothing. Topologies are alike when they differ in
that order at most, and two readings agree when both are refused alike or read what is alike.
-/
namespace DeployPlan

/-- Policies alike in all but the order of their data. -/
structure Policy.Alike (p q : Policy) : Prop where
  name : p.name = q.name
  kind : p.kind = q.kind
  behaviorType : p.behaviorType = q.behaviorType
  data : p.data.Perm q.data

/-- Groups alike in all but the order of the data of policies. -/
structure Group.Alike (g h : Group) : Prop where
  name : g.name = h.name
  members : g.members = h.members
  policies : List.Forall₂ Policy.Alike g.policies h.policies

/-- Topologies alike in all but the order of the data of policies. -/
structure Topology.Alike (t u : Topology) : Prop where
  name : t.name = u.name
  nodes : t.nodes = u.nodes
  groups : List.Forall₂ Group.Alike t.groups u.groups
  dependencies : t.dependencies = u.dependencies
  archive : t.archive = u.archive

theorem Policy.Alike.refl (p : Policy) : p.Alike p := ⟨rfl, rfl, rfl, .refl _⟩

theorem Policy.Alike.trans {p q r : Policy} (h : p.Alike q) (h' : q.Alike r) : p.Alike r where
  name := h.name.trans h'.name
  kind := h.kind.trans h'.kind
  behaviorType := h.behaviorType.trans h'.behaviorType
  data := h.data.trans h'.data

theorem forall₂_trans {α : Type} {R : α → α → Prop} (hR : ∀ a b c, R a b → R b c → R a c)
    {as bs cs : List α} (h : List.Forall₂ R as bs) (h' : List.Forall₂ R bs cs) :
    List.Forall₂ R as cs := by
  induction h generalizing cs with
  | nil => exact h'
  | cons hab _ ih =>
    cases h' with
    | cons hbc hbcs => exact .cons (hR _ _ _ hab hbc) (ih hbcs)

theorem Group.Alike.refl (g : Group) : g.Alike g where
  name := rfl
  members := rfl
  policies := List.forall₂_same.2 fun p _ => .refl p

theorem Group.Alike.trans {g h i : Group} (hgh : g.Alike h) (hhi : h.Alike i) : g.Alike i where
  name := hgh.name.trans hhi.name
  members := hgh.members.trans hhi.members
  policies := forall₂_trans (fun _ _ _ => .trans) hgh.policies hhi.policies

namespace Topology

theorem Alike.refl (t : Topology) : t.Alike t where
  name := rfl
  nodes := rfl
  groups := List.forall₂_same.2 fun g _ => .refl g
  dependencies := rfl
  archive := rfl

theorem Alike.trans {t u v : Topology} (h : t.Alike u) (h' : u.Alike v) : t.Alike v where
  name := h.name.trans h'.name
  nodes := h.nodes.trans h'.nodes
  groups := forall₂_trans (fun _ _ _ => .trans) h.groups h'.groups
  dependencies := h.dependencies.trans h'.dependencies
  archive := h.archive.trans h'.archive

/-- Two readings that are refused alike, or read what is related. -/
inductive Agrees {α β : Type} (S : α → β → Prop) : Except Failure α → Except Failure β → Prop
  | ok {a : α} {b : β} (h : S a b) : Agrees S (.ok a) (.ok b)
  | error (f : Failure) : Agrees S (.error f) (.error f)

namespace Agrees

variable {α β γ δ : Type} {S : α → β → Prop} {S' : γ → δ → Prop}

theorem of_eq {R : α → α → Prop} (hR : ∀ a, R a a) {x y : Except Failure α} (h : x = y) :
    Agrees R x y := by
  subst h
  cases x with
  | ok a => exact .ok (hR a)
  | error f => exact .error f

theorem eq {x y : Except Failure α} (h : Agrees Eq x y) : x = y := by
  cases h with
  | ok h => rw [h]
  | error => rfl

theorem trans {R : α → α → Prop} (hR : ∀ a b c, R a b → R b c → R a c)
    {x y z : Except Failure α} (h : Agrees R x y) (h' : Agrees R y z) : Agrees R x z := by
  cases h with
  | ok hab =>
    cases h' with
    | ok hbc => exact .ok (hR _ _ _ hab hbc)
  | error => exact h'

theorem bind {x : Except Failure α} {y : Except Failure β} {f : α → Except Failure γ}
    {g : β → Except Failure δ} (h : Agrees S x y) (hf : ∀ a b, S a b → Agrees S' (f a) (g b)) :
    Agrees S' (x >>= f) (y >>= g) := by
  cases h with
  | ok h => exact hf _ _ h
  | error e => exact .error e

theorem map_left {x : Except Failure α} {y : Except Failure β} {f : α → γ} {S' : γ → β → Prop}
    (h : Agrees S x y) (hf : ∀ a b, S a b → S' (f a) b) :
    Agrees S' (x >>= fun a => .ok (f a)) y := by
  cases h with
  | ok h => exact .ok (hf _ _ h)
  | error e => exact .error e

theorem mapM {f : α → Except Failure γ} {g : β → Except Failure δ} {as : List α} {bs : List β}
    (h : List.Forall₂ (fun a b => Agrees S' (f a) (g b)) as bs) :
    Agrees (List.Forall₂ S') (as.mapM f) (bs.mapM g) := by
  induction h with
  | nil => exact .ok .nil
  | cons hab _ ih =>
    rw [List.mapM_cons, List.mapM_cons]
    exact hab.bind fun c d hcd => ih.bind fun cs ds hcds => .ok (.cons hcd hcds)

end Agrees

end Topology

end DeployPlan
