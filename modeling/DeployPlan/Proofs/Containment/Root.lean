import DeployPlan.Proofs.Containment.Ascent

/-!
# Roots found by walks

A graph built from a topology is sound. A walk in a sound graph that succeeds finds the end of its
ascent, for every node that it passed; so what finding a root remembers is sound, whatever was found
before.
-/
namespace DeployPlan

namespace Containment

variable {g : Containment} {x current parent root : String} {path path' : List String} {n : Nat}

/-- A walk on its way: the nodes it passed are declared, no two of them are the same, and all of
them ascend to the node where it stands. -/
structure Walk (g : Containment) (path : List String) (current : String) : Prop where
  nodup : path.Nodup
  declared : path ⊆ g.ids
  passed : ∀ y ∈ path, ∃ k, g.ascend k y = some current

namespace Walk

theorem start (hx : x ∈ g.ids) : g.Walk [x] x where
  nodup := List.nodup_singleton x
  declared := List.cons_subset.2 ⟨hx, List.nil_subset _⟩
  passed y hy := by
    obtain rfl := List.mem_singleton.1 hy
    exact ⟨0, rfl⟩

theorem step (hg : g.Sound) (h : g.Walk path current) (hp : g.parent? current = some parent)
    (hnew : parent ∉ path) : g.Walk (parent :: path) parent where
  nodup := List.nodup_cons.2 ⟨hnew, h.nodup⟩
  declared := List.cons_subset.2 ⟨(hg.mem_ids_of_parent? hp).2, h.declared⟩
  passed y hy := by
    rcases List.mem_cons.1 hy with rfl | hy
    · exact ⟨0, rfl⟩
    · obtain ⟨k, hk⟩ := h.passed y hy
      exact ⟨k + 1, by rw [ascend_succ_last, hk, Option.bind_some, hp]⟩

theorem length_le (h : g.Walk path current) : path.length ≤ g.ids.length :=
  (h.nodup.subperm h.declared).length_le

/-- Where a walk ends, every node that it passed ends. -/
theorem endsAt (h : g.Walk path current) (hend : g.EndsAt current root) :
    ∀ y ∈ path, g.EndsAt y root := by
  intro y hy
  obtain ⟨k, hk⟩ := h.passed y hy
  exact hend.of_ascend hk

end Walk

/-- A successful walk ends where every node that it passed ends. -/
theorem climb_ok (hg : g.Sound) (hw : g.Walk path current)
    (hfuel : g.ids.length < path.length + n) (h : g.climb n path current = .ok (root, path')) :
    g.EndsAt current root ∧ ∀ y ∈ path', g.EndsAt y root := by
  -- the path has no repetition, so the walk ends before its bound does
  induction n generalizing path current with
  | zero =>
    have := hw.length_le
    omega
  | succ n ih =>
    rw [climb] at h
    split at h
    · next found hfound =>
      cases h
      have hc := hg.roots_endsAt _ _ hfound
      exact ⟨hc, hw.endsAt hc⟩
    · split at h
      · next hnone =>
        cases h
        have hc := EndsAt.of_parent?_none hnone
        exact ⟨hc, hw.endsAt hc⟩
      · next parent hparent =>
        split at h
        · cases h
        · next hnew =>
          have hnotin : parent ∉ path := by simpa using hnew
          obtain ⟨hroot, hall⟩ := ih (hw.step hg hparent hnotin)
            (by simp only [List.length_cons]; omega) h
          exact ⟨hroot.of_ascend (by rw [ascend_one, hparent]), hall⟩

/-- A root is remembered for the nodes of the path and for those it was remembered for before. -/
theorem roots_remember_cases {found : String}
    (h : (g.remember path root).roots[x]? = some found) :
    x ∈ path ∧ found = root ∨ g.roots[x]? = some found := by
  simp only [remember] at h
  generalize g.roots = known at h ⊢
  induction path generalizing known with
  | nil => exact .inr h
  | cons y path ih =>
    rcases ih _ h with ⟨hx, hf⟩ | hk
    · exact .inl ⟨List.mem_cons_of_mem _ hx, hf⟩
    · rw [Std.ExtTreeMap.getElem?_insert] at hk
      split at hk
      · next he =>
        cases hk
        exact .inl ⟨by simp [Std.LawfulEqCmp.eq_of_compare he], rfl⟩
      · exact .inr hk

/-- A remembered end keeps a graph sound. -/
theorem Sound.remember (hg : g.Sound) (h : ∀ y ∈ path, g.EndsAt y root) :
    (g.remember path root).Sound where
  child_mem := hg.child_mem
  parent_mem := hg.parent_mem
  roots_endsAt y found hy := by
    rw [EndsAt.congr (g.placements_remember path root)]
    rcases roots_remember_cases hy with ⟨hmem, rfl⟩ | hold
    · exact h y hmem
    · exact hg.roots_endsAt y found hold

/-- Finding a root gives the end of the ascent and leaves a sound graph. -/
theorem Sound.root_ok (hg : g.Sound) {g' : Containment} (h : g.root x = (.ok root, g')) :
    g.EndsAt x root ∧ g'.Sound := by
  unfold Containment.root at h
  split at h
  · next hx =>
    split at h
    · next root' path hc =>
      cases h
      have hx' : x ∈ g.ids := by simpa using hx
      obtain ⟨hend, hall⟩ := climb_ok hg (.start hx') (by simp; omega) hc
      exact ⟨hend, hg.remember hall⟩
    · cases h
  · cases h

theorem build_ok {t : Topology} {log log' : Log} (h : build t log = (.ok g, log')) :
    g.ids = t.ids ∧ g.placements = t.placements ∧ g.roots = ∅ := by
  unfold build at h
  split at h
  · next placements log₁ hp =>
    cases h
    exact ⟨rfl, place_ok hp, rfl⟩
  · cases h

end Containment

/-- The containment graph of a topology, no root found yet. -/
def Topology.containment (t : Topology) : Containment := ⟨t.ids, t.placements, ∅⟩

namespace Containment

variable {g : Containment}

theorem eq_containment_of_build {t : Topology} {log log' : Log}
    (h : build t log = (.ok g, log')) : g = t.containment := by
  obtain ⟨hids, hplacements, hroots⟩ := build_ok h
  cases g
  cases hids
  cases hplacements
  cases hroots
  rfl

/-- Nodes that can be placed are placed on declared nodes. -/
theorem has_of_place_ok {t : Topology} {ns : List NodeTemplate} {log log' : Log}
    {ps : List (String × String)} (h : place t ns log = (.ok ps, log')) :
    ∀ e ∈ ps, t.has e.2 = true := by
  induction ns generalizing log log' ps with
  | nil => cases h; simp
  | cons n ns ih =>
    unfold place at h
    split at h
    · exact ih h
    · split at h
      · next hhas =>
        split at h
        · next rest log₁ hr =>
          cases h
          intro e he
          rcases List.mem_cons.1 he with rfl | he
          · exact hhas
          · exact ih hr e he
        · cases h
      · cases h

theorem place_error {t : Topology} {ns : List NodeTemplate} {log log' : Log} {f : Failure}
    (h : place t ns log = (.error f, log')) :
    ∃ n ∈ ns, ∃ parent, n.hostParent? = some parent ∧ parent ∉ t.ids ∧
      f = .compile (.nodeNotFound parent (some n.id)) := by
  induction ns generalizing log with
  | nil => cases h
  | cons n ns ih =>
    have hrest {log : Log} (h : place t ns log = (.error f, log')) :
        ∃ m ∈ n :: ns, ∃ parent, m.hostParent? = some parent ∧ parent ∉ t.ids ∧
          f = .compile (.nodeNotFound parent (some m.id)) := by
      obtain ⟨m, hm, hfault⟩ := ih h
      exact ⟨m, List.mem_cons_of_mem n hm, hfault⟩
    unfold place at h
    split at h
    · exact hrest h
    · next parent hparent =>
      split at h
      · split at h
        · cases h
        · next f₁ log₁ hplace =>
          cases h
          exact hrest hplace
      · next hhas =>
        cases h
        rw [Topology.has_iff_mem_ids] at hhas
        exact ⟨n, List.mem_cons_self, parent, hparent, hhas, rfl⟩

/-- A graph is built when all nodes are placed on declared ones. -/
theorem build_error {t : Topology} {log log' : Log} {f : Failure}
    (h : build t log = (.error f, log')) :
    ∃ n ∈ t.nodes, ∃ parent, n.hostParent? = some parent ∧ parent ∉ t.ids ∧
      f = .compile (.nodeNotFound parent (some n.id)) := by
  unfold build at h
  split at h
  · cases h
  · next f₁ log₁ hplace =>
    cases h
    exact place_error hplace

/-- In a topology whose graph is built parents are declared. -/
theorem hostParent?_mem_of_build {t : Topology} {log log' : Log} (h : build t log = (.ok g, log'))
    {n : NodeTemplate} (hn : n ∈ t.nodes) {parent : String} (hp : n.hostParent? = some parent) :
    parent ∈ t.ids := by
  unfold build at h
  split at h
  · next placements log₁ hplace =>
    have hmem : (n.id, parent) ∈ placements := by
      rw [place_ok hplace]
      exact List.mem_filterMap.2 ⟨n, hn, by rw [hp, Option.map_some]⟩
    exact (t.has_iff_mem_ids parent).1 (has_of_place_ok hplace _ hmem)
  · cases h

theorem sound_of_build {t : Topology} {log log' : Log} (h : build t log = (.ok g, log')) :
    g.Sound := by
  obtain ⟨hgi, hgp, hgr⟩ := build_ok h
  refine ⟨fun e he => ?_, fun e he => ?_, fun y found hy => ?_⟩
  · obtain ⟨n, hn, hid, -⟩ := Topology.mem_placements_iff.1 (hgp ▸ he)
    rw [hgi, ← hid]
    exact List.mem_map_of_mem hn
  · rw [hgi, ← Topology.has_iff_mem_ids]
    unfold build at h
    split at h
    · next placements log₁ hp =>
      cases h
      exact has_of_place_ok hp e he
    · cases h
  · rw [hgr, Std.ExtTreeMap.getElem?_empty] at hy
    cases hy

theorem placements_sublist (t : Topology) : (t.placements.map (·.1)).Sublist t.ids := by
  rw [Topology.placements, Topology.ids]
  generalize t.nodes = ns
  induction ns with
  | nil => exact .slnil
  | cons n ns ih =>
    cases hp : n.hostParent? with
    | none => simpa [hp] using ih.cons n.id
    | some parent => simpa [hp] using ih.cons_cons n.id

theorem Sound.distinct {t : Topology} (hg : t.containment.Sound) (hids : t.ids.Nodup) :
    t.containment.Distinct where
  toSound := hg
  keys_nodup := hids.sublist (placements_sublist t)

/-- In the graph of a topology of distinct ids the parent of a node is the one it declares. -/
theorem Distinct.parent?_containment {t : Topology} (hg : t.containment.Distinct)
    (hids : t.ids.Nodup) {n : NodeTemplate} (hn : n ∈ t.nodes) :
    t.containment.parent? n.id = n.hostParent? := by
  have key (y : String) : t.containment.parent? n.id = some y ↔ n.hostParent? = some y := by
    rw [hg.parent?_eq_some_iff, Topology.containment, Topology.mem_placements_iff]
    constructor
    · rintro ⟨m, hm, hid, hy⟩
      rwa [List.inj_on_of_nodup_map hids hn hm hid.symm]
    · intro hy
      exact ⟨n, hn, rfl, hy⟩
  exact Option.ext key

end Containment

end DeployPlan
