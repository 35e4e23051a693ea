import DeployPlan.Proofs.Topology.NodeForms

/-!
# Short and long forms of policies

A map of policies is read as the list of them, each with its name; and a behaviour that has its type
among its data is read alike with the type beside the data.
-/
namespace DeployPlan

open Entries (ChangesOne)

namespace Entries

variable {α : Type}

theorem get?_append (name : String) (es es' : List (String × α)) :
    get? name (es ++ es') = (get? name es).or (get? name es') := by
  induction es with
  | nil => rfl
  | cons e es ih =>
    rw [List.cons_append, get?, get?, ih]
    split <;> rfl

/-- Taking a name out takes out the first value under it. -/
theorem perm_cons_remove {name : String} {v : α} {es : List (String × α)}
    (h : get? name es = some v) : es.Perm ((name, v) :: remove name es) := by
  induction es with
  | nil => cases h
  | cons e es ih =>
    rw [get?] at h
    rw [remove]
    split at h
    · next hname =>
      cases h
      subst hname
      rw [if_pos rfl]
      refine .cons _ ?_
      cases hlast : es.getLast? with
      | none => rw [List.getLast?_eq_none_iff.1 hlast]
      | some last =>
        obtain ⟨before, rfl⟩ := List.getLast?_eq_some_iff.1 hlast
        rw [List.dropLast_concat]
        exact List.perm_append_singleton last before
    · next hname =>
      rw [if_neg hname]
      exact ((ih h).cons _).trans (.swap _ _ _)

end Entries

theorem Fields.text?_single (name : String) (fields : Fields) :
    text? [name] fields = (Entries.get? name fields).bind Json.scalarText? := by
  rw [text?, Entries.first?, List.findSome?_cons]
  cases Entries.get? name fields <;> rfl

namespace Topology

/-- The name that a policy has by its place in a list is no kind. -/
theorem placeName_ne_location (group : String) (index : Nat) :
    s!"{group}-{index}" ≠ "location" := by
  intro h
  have hdash : '-' ∈ (s!"{group}-{index}").toList := by
    rw [String.toList_append, String.toList_append]
    exact List.mem_append_left _ (List.mem_append_right _ (by decide))
  rw [h] at hdash
  exact absurd hdash (by decide)

theorem readPolicyKind_of_isBehavior {policy : Fields} (h : IsBehavior policy) (group : String)
    (index : Nat) : readPolicyKind group
      ((Fields.text? ["name"] policy).getD s!"{group}-{index}") (Fields.text? ["kind"] policy) =
        .ok .behavior := by
  cases h with
  | stated kind =>
    rw [kind]
    rfl
  | implied kind name =>
    have hname : (Fields.text? ["name"] policy).getD s!"{group}-{index}" ≠ "location" := by
      cases hstated : Fields.text? ["name"] policy with
      | none => exact placeName_ne_location group index
      | some stated =>
        rintro rfl
        exact name hstated
    rw [kind, readPolicyKind, if_neg hname]

theorem readPolicy_of_isBehavior {policy data : Fields} (h : IsBehavior policy)
    (held : HoldsData policy data) (group : String) (index : Nat) :
    readPolicy group index (.obj policy) =
      if Fields.text? ["type"] policy = none then
        .ok ⟨(Fields.text? ["name"] policy).getD s!"{group}-{index}", .behavior,
          Fields.text? ["type"] data, Entries.remove "type" data⟩
      else .ok ⟨(Fields.text? ["name"] policy).getD s!"{group}-{index}", .behavior,
        Fields.text? ["type"] policy, data⟩ := by
  have hdata : ((Entries.first? ["data", "properties"] policy).bind Json.asObject?).getD [] =
      data := by
    rw [held]
    rfl
  simp only [readPolicy, readPolicyKind_of_isBehavior h, hdata]
  cases Fields.text? ["type"] policy <;> rfl

theorem MovesType.isBehavior {policy policy' : Fields} (h : MovesType policy policy')
    (behavior : IsBehavior policy) : IsBehavior policy' := by
  obtain ⟨name, kind⟩ := h
  cases behavior with
  | stated stated => exact .stated (by rwa [Fields.text?_single, ← kind, ← Fields.text?_single])
  | implied none other =>
    exact .implied (by rwa [Fields.text?_single, ← kind, ← Fields.text?_single])
      (by rwa [Fields.text?_single, ← name, ← Fields.text?_single])

/-- A policy is read alike with its type taken out of its data. -/
theorem readPolicy_agrees {policy policy' : Fields} (h : MovesType policy policy')
    (behavior : IsBehavior policy) (group : String) (index : Nat) :
    Agrees Policy.Alike (readPolicy group index (.obj policy))
      (readPolicy group index (.obj policy')) := by
  have behavior' := h.isBehavior behavior
  obtain @⟨v, data, data', name, kind, untyped, held, type, scalar, typed, left, taken⟩ := h
  have hname : Fields.text? ["name"] policy = Fields.text? ["name"] policy' := by
    rw [Fields.text?_single, Fields.text?_single, name]
  have htype : Fields.text? ["type"] data = Fields.text? ["type"] policy' := by
    rw [Fields.text?_single, Fields.text?_single, type, typed]
  have htyped : Fields.text? ["type"] policy' ≠ none := by
    rw [Fields.text?_single, typed]
    exact fun hnone => Json.scalarText?_eq_none_iff.1 hnone scalar
  have hdata : (Entries.remove "type" data).Perm data' :=
    ((Entries.perm_cons_remove type).symm.trans taken).cons_inv
  rw [readPolicy_of_isBehavior behavior held, readPolicy_of_isBehavior behavior' left,
    if_pos untyped, if_neg htyped, hname, htype]
  exact .ok ⟨rfl, rfl, rfl, hdata⟩

theorem get?_named (place name : String) (policy : Fields) :
    Entries.get? name (named place policy) =
      (Entries.get? name policy).or (if name = "name" then some (.str place) else none) := by
  unfold named
  split
  · next has =>
    split
    · next hname =>
      obtain ⟨v, hv⟩ := Option.isSome_iff_exists.1 has
      rw [hname, hv]
      rfl
    · rw [Option.or_none]
  · rw [Entries.get?_append, Entries.get?, Entries.get?]
    simp only [eq_comm]

theorem get?_named_of_ne {place name : String} (h : name ≠ "name") (policy : Fields) :
    Entries.get? name (named place policy) = Entries.get? name policy := by
  rw [get?_named, if_neg h, Option.or_none]

theorem holdsData_named_iff {place : String} {policy data : Fields} :
    HoldsData (named place policy) data ↔ HoldsData policy data := by
  simp only [HoldsData, Entries.first?, List.findSome?_cons, List.findSome?_nil,
    get?_named_of_ne (by decide : "data" ≠ "name"),
    get?_named_of_ne (by decide : "properties" ≠ "name")]

/-- The type of a policy that is in a map can be taken out of its data likewise. -/
theorem MovesType.named {policy policy' : Fields} (h : MovesType policy policy')
    (place : String) : MovesType (named place policy) (named place policy') := by
  obtain @⟨v, data, data', name, kind, untyped, held, type, scalar, typed, left, taken⟩ := h
  refine .mk (v := v) ?_ ?_ ?_ (holdsData_named_iff.2 held) type scalar ?_
    (holdsData_named_iff.2 left) taken
  · rw [get?_named, get?_named, name]
  · rw [get?_named, get?_named, kind]
  · rwa [Fields.text?_single, get?_named_of_ne (by decide), ← Fields.text?_single]
  · rwa [get?_named_of_ne (by decide)]

theorem namedPolicy_obj (place : String) (policy : Fields) :
    namedPolicy place (.obj policy) = .obj (named place policy) := by
  rw [namedPolicy, named, apply_ite Json.obj]

/-- Policies in turn are read alike when each one is, whatever its place. -/
theorem readPoliciesFrom_agrees {group : String} {vs ws : List Json}
    (h : List.Forall₂ (fun v w => ∀ index,
      Agrees Policy.Alike (readPolicy group index v) (readPolicy group index w)) vs ws)
    (index : Nat) : Agrees (List.Forall₂ Policy.Alike) (readPoliciesFrom group index vs)
      (readPoliciesFrom group index ws) := by
  induction h generalizing index with
  | nil => exact .ok .nil
  | cons hvw _ ih =>
    rw [readPoliciesFrom, readPoliciesFrom]
    exact (hvw index).bind fun p q hpq => (ih (index + 1)).bind fun ps qs hps =>
      .ok (.cons hpq hps)

theorem policyBodies_agrees {v w : Json} (h : PoliciesRewrite v w) (group : String) :
    List.Forall₂ (fun v w => ∀ index,
        Agrees Policy.Alike (readPolicy group index v) (readPolicy group index w))
      (policyBodies (some v)) (policyBodies (some w)) := by
  have hsame (v : Json) (index : Nat) :
      Agrees Policy.Alike (readPolicy group index v) (readPolicy group index v) :=
    .of_eq Policy.Alike.refl rfl
  cases h with
  | listed before after behavior moves =>
    have hsame' (vs : List Json) : List.Forall₂ (fun v w => ∀ index,
        Agrees Policy.Alike (readPolicy group index v) (readPolicy group index w)) vs vs :=
      List.forall₂_same.2 fun v _ => hsame v
    exact List.rel_append (hsame' before)
      (.cons (readPolicy_agrees moves behavior group) (hsame' after))
  | named change =>
    obtain ⟨change⟩ := change
    rw [policyBodies, policyBodies, List.forall₂_map_left_iff, List.forall₂_map_right_iff]
    refine change.forall₂ (fun e => hsame _) fun place v w h => ?_
    cases h with
    | moveType behavior moves =>
      simp only [namedPolicy_obj]
      exact readPolicy_agrees (moves.named place) behavior group
  | list policies => exact List.forall₂_same.2 fun v _ => hsame v

theorem readGroup_agrees {v w : Json} (h : GroupRewrite v w) (name : String) :
    Agrees Group.Alike (readGroup name v) (readGroup name w) := by
  obtain @⟨fields, fields', change⟩ := h
  have hmembers : Entries.get? "members" fields = Entries.get? "members" fields' :=
    change.get?_eq Under.mem (by decide)
  have hpolicies : Agrees (List.Forall₂ Policy.Alike)
      (readPoliciesFrom name 0 (policyBodies (Entries.get? "policies" fields)))
      (readPoliciesFrom name 0 (policyBodies (Entries.get? "policies" fields'))) := by
    rcases get?_under change with heq | ⟨v, w, hv, hw, change⟩
    · rw [heq]
      exact .of_eq (fun ps => List.forall₂_same.2 fun p _ => .refl p) rfl
    · rw [hv, hw]
      exact readPoliciesFrom_agrees (policyBodies_agrees change name) 0
  simp only [readGroup, hmembers]
  exact hpolicies.bind fun ps qs hps => .ok ⟨rfl, rfl, hps⟩

end Topology

end DeployPlan
