import DeployPlan.Proofs.Files.Nodes

/-!
# Distinct files

In a tree in which the children of a directory have distinct names, and names are such as file
systems allow, the files below a directory have distinct paths. The last name of a path says only
where its file is inside its own directory.
-/
namespace DeployPlan

/-- What a walk has reached, and all that it has passed, is proper. -/
structure Walk.IsProper (w : Walk) : Prop where
  reached : w.reached.isProper = true
  passed : ∀ x ∈ w.passed, x.2.isProper = true

namespace Walk

variable {w w' : Walk} {name : String} {names : List String}

/-- A step is taken in a directory, and goes nowhere, back to the one above, or to a child. -/
theorem step_cases (h : w.step name = .ok w') : ∃ children, w.reached = .directory children ∧
    (name = "." ∧ w' = w ∨
      name = ".." ∧ w.passed = [] ∧ w' = w ∨
      name = ".." ∧ (∃ x passed, w.passed = x :: passed ∧ w' = ⟨passed, x.2⟩) ∨
      name ≠ "." ∧ name ≠ ".." ∧ ∃ n, FileNode.child? name children = some n ∧
        w' = ⟨(name, w.reached) :: w.passed, n⟩) := by
  unfold Walk.step at h
  split at h
  · next children hreached =>
    refine ⟨children, hreached, ?_⟩
    split at h
    · next hdot =>
      cases h
      exact Or.inl ⟨hdot, rfl⟩
    next hdot =>
    split at h
    · next hdots =>
      split at h
      · next first above passed hpassed =>
        cases h
        exact Or.inr (Or.inr (Or.inl ⟨hdots, _, _, hpassed, rfl⟩))
      · next hpassed =>
        cases h
        exact Or.inr (Or.inl ⟨hdots, hpassed, rfl⟩)
    next hdots =>
    split at h
    · cases h
    split at h
    · next n hn =>
      cases h
      exact Or.inr (Or.inr (Or.inr ⟨hdot, hdots, n, hn, rfl⟩))
    · cases h
  · cases h

theorem IsProper.step (h : w.IsProper) (hstep : w.step name = .ok w') : w'.IsProper := by
  obtain ⟨children, hreached, hcases⟩ := step_cases hstep
  rcases hcases with ⟨-, rfl⟩ | ⟨-, -, rfl⟩ | ⟨-, x, passed, hpassed, rfl⟩ |
    ⟨-, -, n, hn, rfl⟩
  · exact h
  · exact h
  · have hall := h.passed
    rw [hpassed, List.forall_mem_cons] at hall
    exact ⟨hall.1, hall.2⟩
  · have hproper := h.reached
    rw [hreached] at hproper
    exact ⟨FileNode.isProper_of_child? hproper hn, List.forall_mem_cons.2 ⟨h.reached, h.passed⟩⟩

theorem IsProper.follow (h : w.IsProper) (hfollow : w.follow names = .ok w') : w'.IsProper := by
  induction names generalizing w with
  | nil =>
    cases hfollow
    exact h
  | cons name names ih =>
    rw [Walk.follow] at hfollow
    split at hfollow
    · next w₁ hstep => exact ih (h.step hstep) hfollow
    · cases hfollow

end Walk

namespace FileTree

variable {t : FileTree} {p : Path} {n : FileNode}

/-- A path that leads somewhere is short, and its names are followed to there. -/
theorem follow_of_node? (h : t.node? p = some n) :
    p.isShort = true ∧ ∃ w, t.follow p.isAbsolute p.steps = .ok w ∧ w.reached = n := by
  unfold node? at h
  split at h
  · next w hw =>
    cases h
    rw [walk, followIn] at hw
    split at hw
    · cases hw
    split at hw
    · cases hw
    split at hw
    · cases hw
    · next hshort => exact ⟨by simpa using hshort, w, hw, rfl⟩
  · cases h

theorem isProper_of_node? (ht : t.root.isProper = true) (h : t.node? p = some n) :
    n.isProper = true := by
  obtain ⟨-, w, hw, rfl⟩ := follow_of_node? h
  have hstart : (Walk.start t.root).IsProper := ⟨ht, List.forall_mem_nil _⟩
  exact (hstart.follow hw).reached

/-- Where a directory is there are its children. -/
theorem exists_of_isDirectory (h : t.isDirectory p = true) :
    ∃ children, t.node? p = some (.directory children) := by
  obtain ⟨n, hn, hdirectory⟩ := (Option.any_eq_true _ _).1 h
  cases n with
  | file _ | device => cases hdirectory
  | directory children => exact ⟨children, hn⟩

theorem listing_eq_ok_iff {files : List Path} :
    t.listing p = .ok files ↔ t.isDirectory p = true ∧ files = t.filesBelow p := by
  rw [listing, isDirectory, node?]
  cases t.walk p with
  | error e => simp
  | ok w => cases hdirectory : w.reached.isDirectory <;> simp [hdirectory, eq_comm]

theorem filesBelow_eq (h : t.node? p = some n) : t.filesBelow p =
    (n.files fun names => (p.joinAll names).isShort).map p.joinAll := by
  rw [filesBelow, h]

/-- The files below a directory of a proper tree have distinct paths, and each is called something.
-/
theorem filesBelow_distinct (ht : t.root.isProper = true) (hp : t.isDirectory p = true) :
    ((t.filesBelow p).map Path.text).Nodup ∧
      ∀ file ∈ t.filesBelow p, ∃ name, file.fileName? = some name := by
  obtain ⟨children, hn⟩ := exists_of_isDirectory hp
  have hproper := isProper_of_node? ht hn
  have hbelow {names : List String} (h : names ∈ (FileNode.directory children).files fun names =>
      (p.joinAll names).isShort) : names ≠ [] ∧ ∀ name ∈ names, Path.isName name = true :=
    ⟨FileNode.ne_nil_of_mem_files (follow_of_node? hn).1 h, FileNode.isName_of_mem_files hproper h⟩
  rw [filesBelow_eq hn]
  constructor
  · rw [List.map_map]
    refine List.Nodup.map_on (fun names hn others ho heq => ?_) (FileNode.nodup_files hproper)
    exact Path.joinAll_inj (hbelow hn).2 (hbelow hn).1 (hbelow ho).2 (hbelow ho).1 heq
  · rw [List.forall_mem_map]
    intro names hn
    refine ⟨names.getLast (hbelow hn).1, ?_⟩
    rw [Path.fileName?_joinAll p (hbelow hn).2, List.getLast?_eq_some_getLast, Option.some_or]

end FileTree

end DeployPlan
