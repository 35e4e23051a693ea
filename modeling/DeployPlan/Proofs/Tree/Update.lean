import DeployPlan.Proofs.Tree.Map

/-!
# Updates of one label

An update changes the first label that passes. When no other label passes, it is the relabelling
that changes the labels that pass; and when none does, both leave everything as it is.
-/
namespace DeployPlan.Tree

variable {α β γ : Type}

mutual

/-- Relabelling depends on what becomes of the labels that are there. -/
theorem map_congr {f g : α → β} (t : Tree α) (h : ∀ a ∈ t.labels, f a = g a) :
    map f t = map g t := by
  match t with
  | node a ts =>
    rw [labels_node, ← labelsOf_eq_flatMap, List.forall_mem_cons] at h
    have hbelow := mapAll_congr ts h.2
    rw [map, map, h.1, hbelow]

theorem mapAll_congr {f g : α → β} (ts : List (Tree α)) (h : ∀ a ∈ labelsOf ts, f a = g a) :
    mapAll f ts = mapAll g ts := by
  match ts with
  | [] => simp only [mapAll]
  | t :: ts =>
    rw [labelsOf_cons, List.forall_mem_append] at h
    have hfirst := map_congr t h.1
    have hrest := mapAll_congr ts h.2
    rw [mapAll, mapAll, hfirst, hrest]

end

mutual

theorem map_id (t : Tree α) : map id t = t := by
  match t with
  | node a ts =>
    have hbelow := mapAll_id ts
    rw [map, hbelow, id]

theorem mapAll_id (ts : List (Tree α)) : mapAll id ts = ts := by
  match ts with
  | [] => rw [mapAll]
  | t :: ts =>
    have hfirst := map_id t
    have hrest := mapAll_id ts
    rw [mapAll, hfirst, hrest]

end

mutual

theorem map_map (g : β → γ) (f : α → β) (t : Tree α) : map g (map f t) = map (g ∘ f) t := by
  match t with
  | node a ts =>
    have hbelow := mapAll_mapAll g f ts
    rw [map, map, map, hbelow, Function.comp_apply]

theorem mapAll_mapAll (g : β → γ) (f : α → β) (ts : List (Tree α)) :
    mapAll g (mapAll f ts) = mapAll (g ∘ f) ts := by
  match ts with
  | [] => simp only [mapAll]
  | t :: ts =>
    have hfirst := map_map g f t
    have hrest := mapAll_mapAll g f ts
    rw [mapAll, mapAll, mapAll, hfirst, hrest]

end

section

variable {p : α → Bool} {f : α → α}

/-- Changes the labels that pass. -/
def relabel (p : α → Bool) (f : α → α) (a : α) : α := if p a then f a else a

theorem mapAll_relabel_of_none {ts : List (Tree α)} (h : (labelsOf ts).countP p = 0) :
    mapAll (relabel p f) ts = ts := by
  rw [List.countP_eq_zero] at h
  have hsame : mapAll (relabel p f) ts = mapAll id ts :=
    mapAll_congr ts fun a ha => if_neg (h a ha)
  rw [hsame, mapAll_id]

theorem map_relabel_of_none {t : Tree α} (h : t.labels.countP p = 0) :
    map (relabel p f) t = t := by
  rw [List.countP_eq_zero] at h
  have hsame : map (relabel p f) t = map id t := map_congr t fun a ha => if_neg (h a ha)
  rw [hsame, map_id]

mutual

theorem update?_eq_map (t : Tree α) (h : t.labels.countP p ≤ 1) :
    update? p (mapLabel f) t =
      if t.labels.countP p = 0 then none else some (map (relabel p f) t) := by
  match t with
  | node a ts =>
    rw [labels_node, ← labelsOf_eq_flatMap] at h ⊢
    rw [update?]
    by_cases hp : p a = true
    · rw [List.countP_cons_of_pos hp] at h ⊢
      have hnone : (labelsOf ts).countP p = 0 := by omega
      rw [if_pos hp, if_neg (Nat.succ_ne_zero _), mapLabel, map, mapAll_relabel_of_none hnone,
        relabel, if_pos hp]
    · rw [List.countP_cons_of_neg hp] at h ⊢
      have hbelow := updateIn?_eq_mapAll ts h
      rw [if_neg hp, hbelow, map, relabel, if_neg hp]
      split <;> rfl

theorem updateIn?_eq_mapAll (ts : List (Tree α)) (h : (labelsOf ts).countP p ≤ 1) :
    updateIn? p (mapLabel f) ts =
      if (labelsOf ts).countP p = 0 then none else some (mapAll (relabel p f) ts) := by
  match ts with
  | [] => rfl
  | t :: ts =>
    rw [labelsOf_cons, List.countP_append] at h ⊢
    have hfirst := update?_eq_map t (by omega)
    have hrest := updateIn?_eq_mapAll ts (by omega)
    rw [updateIn?, hfirst, mapAll]
    by_cases ht : t.labels.countP p = 0
    · rw [if_pos ht, ht, Nat.zero_add, map_relabel_of_none ht]
      by_cases hts : (labelsOf ts).countP p = 0
      · rw [hrest, if_pos hts, if_pos hts]
        rfl
      · rw [hrest, if_neg hts, if_neg hts]
        rfl
    · have hnone : (labelsOf ts).countP p = 0 := by omega
      rw [if_neg ht, if_neg (by omega), mapAll_relabel_of_none hnone]

end

/-- Trees with the one label that passes changed, if there is one. -/
theorem getD_updateIn? {ts : List (Tree α)} (h : (labelsOf ts).countP p ≤ 1) :
    (updateIn? p (mapLabel f) ts).getD ts = mapAll (relabel p f) ts := by
  rw [updateIn?_eq_mapAll ts h]
  split
  · next hnone => rw [Option.getD_none, mapAll_relabel_of_none hnone]
  · rw [Option.getD_some]

end

end DeployPlan.Tree
