import DeployPlan.Proofs.Files.Names
import Mathlib.Data.List.Lex
import Mathlib.Data.List.Nodup
import Mathlib.Data.String.Basic

/-!
# Nodes of a tree of files

The children of a directory in a proper tree have distinct names such as file systems allow. What is
listed below a node are nodes of the tree, and the names that lead to them are in strict order.
-/
namespace DeployPlan

namespace FileNode

mutual

/-- All nodes of a tree, each with the names that lead to it. -/
def nodes : FileNode → List (List String × FileNode)
  | file content => [([], file content)]
  | device => [([], device)]
  | directory children => ([], directory children) :: nodesOf children

def nodesOf : List (String × FileNode) → List (List String × FileNode)
  | [] => []
  | (name, n) :: rest => n.nodes.map (fun e => (name :: e.1, e.2)) ++ nodesOf rest

end

mutual

/-- All directories in a tree have children of distinct names that files can have. -/
def isProper : FileNode → Bool
  | directory children => areProper children
  | _ => true

def areProper : List (String × FileNode) → Bool
  | [] => true
  | (name, n) :: rest =>
    Path.isName name && rest.all (·.1 ≠ name) && n.isProper && areProper rest

end

variable {n k : FileNode} {children : List (String × FileNode)} {name : String}
  {names : List String} {opens : List String → Bool}

theorem mem_nodesOf {e : List String × FileNode} : e ∈ nodesOf children ↔
    ∃ c ∈ children, ∃ f ∈ c.2.nodes, (c.1 :: f.1, f.2) = e := by
  induction children with
  | nil => simp [nodesOf]
  | cons c rest ih => simp [nodesOf, ih]

theorem mem_nodes_nil : ([], k) ∈ n.nodes ↔ k = n := by
  cases n with
  | file _ | device => simp [nodes]
  | directory children => simp [nodes, mem_nodesOf]

/-- A node under some names is found under the first of them first. -/
theorem mem_nodes_cons : (name :: names, k) ∈ n.nodes ↔
    ∃ m, (name, m) ∈ n.childrenOf ∧ (names, k) ∈ m.nodes := by
  cases n with
  | file _ | device => simp [nodes, childrenOf]
  | directory children => simp [nodes, childrenOf, mem_nodesOf]

theorem areProper_cons {rest : List (String × FileNode)} :
    areProper ((name, n) :: rest) = true ↔ Path.isName name = true ∧ (∀ c ∈ rest, c.1 ≠ name) ∧
      n.isProper = true ∧ areProper rest = true := by
  simp [areProper, and_assoc]

theorem areProper_iff : areProper children = true ↔ (children.map Prod.fst).Nodup ∧
    ∀ c ∈ children, Path.isName c.1 = true ∧ c.2.isProper = true := by
  induction children with
  | nil => simp [areProper]
  | cons c rest ih =>
    have hnew : (∀ c' ∈ rest, c'.1 ≠ c.1) ↔ c.1 ∉ rest.map Prod.fst := by
      rw [List.mem_map, not_exists]
      exact forall_congr' fun c' => not_and.symm
    rw [areProper_cons, ih, hnew, List.map_cons, List.nodup_cons, List.forall_mem_cons]
    tauto

theorem mem_of_child? (h : child? name children = some n) : (name, n) ∈ children := by
  induction children with
  | nil => cases h
  | cons c rest ih =>
    rw [child?] at h
    split at h
    · next hname =>
      cases h
      exact hname ▸ List.mem_cons_self
    · exact List.mem_cons_of_mem _ (ih h)

theorem child?_of_mem (h : (children.map Prod.fst).Nodup) (hn : (name, n) ∈ children) :
    child? name children = some n := by
  induction children with
  | nil => cases hn
  | cons c rest ih =>
    rw [List.map_cons, List.nodup_cons] at h
    rw [child?]
    rcases List.mem_cons.1 hn with rfl | hrest
    · exact if_pos rfl
    · rw [if_neg, ih h.2 hrest]
      rintro rfl
      exact h.1 (List.mem_map.2 ⟨_, hrest, rfl⟩)

theorem isProper_of_child? (h : areProper children = true) (hn : child? name children = some n) :
    n.isProper = true :=
  ((areProper_iff.1 h).2 _ (mem_of_child? hn)).2

theorem areProper_childrenOf (h : n.isProper = true) : areProper n.childrenOf = true := by
  cases n with
  | file _ | device => rfl
  | directory children => exact h

theorem isName_of_mem_nodes (h : n.isProper = true) (hk : (names, k) ∈ n.nodes) :
    ∀ name ∈ names, Path.isName name = true := by
  induction names generalizing n with
  | nil => exact List.forall_mem_nil _
  | cons name names ih =>
    obtain ⟨m, hm, hk⟩ := mem_nodes_cons.1 hk
    obtain ⟨hname, hproper⟩ := (areProper_iff.1 (areProper_childrenOf h)).2 _ hm
    exact List.forall_mem_cons.2 ⟨hname, ih hproper hk⟩

theorem filesOf_eq_map (opens : List String → Bool) (children : List (String × FileNode)) :
    filesOf opens children =
      children.map fun c => (c.1, c.2.files fun names => opens (c.1 :: names)) := by
  induction children with
  | nil => rfl
  | cons c rest ih => rw [filesOf, ih, List.map_cons]

/-- The files below a directory that is looked into are those below its children, each under the
child's name. -/
theorem files_perm (h : opens [] = true) (children : List (String × FileNode)) :
    ((directory children).files opens).Perm (children.flatMap fun c =>
      (c.2.files fun names => opens (c.1 :: names)).map (c.1 :: ·)) := by
  have hsorted := (List.mergeSort_perm (filesOf opens children) fun a b => a.1 ≤ b.1).flatMap_right
    fun e => e.2.map (e.1 :: ·)
  rw [filesOf_eq_map, List.flatMap_map] at hsorted
  rw [files, if_pos h, filesOf_eq_map]
  exact hsorted

theorem files_of_not_opens (h : opens [] = false) : (directory children).files opens = [[]] := by
  rw [files, if_neg (by simp [h])]

/-- Children that are in the order of their names stay in it. -/
theorem files_of_sorted (h : opens [] = true) (hchildren : children.Pairwise fun a b => a.1 ≤ b.1) :
    (directory children).files opens =
      children.flatMap fun c => (c.2.files fun names => opens (c.1 :: names)).map (c.1 :: ·) := by
  rw [files, if_pos h, filesOf_eq_map,
    List.mergeSort_of_pairwise (List.pairwise_map.2 (by simpa using hchildren)), List.flatMap_map]

theorem ne_nil_of_mem_files (h : opens [] = true)
    (hnames : names ∈ (directory children).files opens) : names ≠ [] := by
  obtain ⟨c, -, hbelow⟩ := List.mem_flatMap.1 ((files_perm h children).mem_iff.1 hnames)
  obtain ⟨below, -, rfl⟩ := List.mem_map.1 hbelow
  exact List.cons_ne_nil _ _

mutual

/-- If all directories are looked into, the files below a node are the nodes that are no
directories. -/
theorem files_perm_nodes {n : FileNode} (opens : List String → Bool)
    (h : ∀ e ∈ n.nodes, e.2.isDirectory = true → opens e.1 = true) :
    (n.files opens).Perm ((n.nodes.filter fun e => !e.2.isDirectory).map Prod.fst) := by
  match n with
  | file _ | device => exact List.Perm.refl _
  | directory children =>
    have hopens : opens [] = true := h ([], directory children) List.mem_cons_self rfl
    refine (files_perm hopens children).trans ?_
    rw [nodes, List.filter_cons_of_neg (by simp [isDirectory])]
    exact files_perm_nodesOf opens fun e he => h e (List.mem_cons_of_mem _ he)

theorem files_perm_nodesOf {children : List (String × FileNode)} (opens : List String → Bool)
    (h : ∀ e ∈ nodesOf children, e.2.isDirectory = true → opens e.1 = true) :
    (children.flatMap fun c => (c.2.files fun names => opens (c.1 :: names)).map (c.1 :: ·)).Perm
      (((nodesOf children).filter fun e => !e.2.isDirectory).map Prod.fst) := by
  match children with
  | [] => exact List.Perm.nil
  | (name, n) :: rest =>
    rw [nodesOf, List.forall_mem_append, List.forall_mem_map] at h
    rw [List.flatMap_cons, nodesOf, List.filter_append, List.map_append, List.filter_map,
      List.map_map]
    have hfirst := (files_perm_nodes (fun names => opens (name :: names)) h.1).map (name :: ·)
    rw [List.map_map] at hfirst
    exact hfirst.append (files_perm_nodesOf opens h.2)

end

/-- What stands with the files is a node, and no directory that is looked into. -/
theorem exists_node_of_mem_files (h : names ∈ n.files opens) :
    ∃ k, (names, k) ∈ n.nodes ∧ (k.isDirectory = true → opens names = false) := by
  induction names generalizing n opens with
  | nil =>
    refine ⟨n, mem_nodes_nil.2 rfl, fun hdirectory => ?_⟩
    cases n with
    | file _ | device => cases hdirectory
    | directory children =>
      by_contra hopens
      rw [Bool.not_eq_false] at hopens
      exact ne_nil_of_mem_files hopens h rfl
  | cons name names ih =>
    cases n with
    | file _ | device => simp [files] at h
    | directory children =>
      cases hopens : opens [] with
      | false => simp [files_of_not_opens hopens] at h
      | true =>
        obtain ⟨⟨_, m⟩, hm, hbelow⟩ := List.mem_flatMap.1 ((files_perm hopens children).mem_iff.1 h)
        obtain ⟨_, hnames, heq⟩ := List.mem_map.1 hbelow
        cases heq
        obtain ⟨k, hk, hlooked⟩ := ih hnames
        exact ⟨k, mem_nodes_cons.2 ⟨m, hm, hk⟩, hlooked⟩

theorem isName_of_mem_files (h : n.isProper = true) (hnames : names ∈ n.files opens) :
    ∀ name ∈ names, Path.isName name = true := by
  obtain ⟨k, hk, -⟩ := exists_node_of_mem_files hnames
  exact isName_of_mem_nodes h hk

/-- Children of distinct names are sorted strictly by their names. -/
theorem pairwise_mergeSort_filesOf (h : areProper children = true) (opens : List String → Bool) :
    ((filesOf opens children).mergeSort fun a b => a.1 ≤ b.1).Pairwise fun a b => a.1 < b.1 := by
  have hsorted : ((filesOf opens children).mergeSort fun a b => a.1 ≤ b.1).Pairwise
      fun a b => decide (a.1 ≤ b.1) = true :=
    List.pairwise_mergeSort
      (fun a b c hab hbc => by
        simp only [decide_eq_true_eq] at hab hbc ⊢
        exact le_trans hab hbc)
      (fun a b => by
        simp only [Bool.or_eq_true, decide_eq_true_eq]
        exact le_total a.1 b.1) _
  have hdistinct : ((filesOf opens children).mergeSort fun a b => a.1 ≤ b.1).Pairwise
      fun a b => a.1 ≠ b.1 := by
    have hnames : ((filesOf opens children).map Prod.fst).Nodup := by
      rw [filesOf_eq_map, List.map_map]
      exact (areProper_iff.1 h).1
    exact List.pairwise_map.1 (((List.mergeSort_perm _ _).map _).nodup_iff.2 hnames)
  exact hsorted.imp₂ (fun a b hle hne => lt_of_le_of_ne (by simpa using hle) hne) hdistinct

mutual

/-- The files below a node are in strict lexicographic order of their names. -/
theorem pairwise_files {n : FileNode} (h : n.isProper = true) (opens : List String → Bool) :
    (n.files opens).Pairwise (· < ·) := by
  match n with
  | file _ | device => exact List.pairwise_singleton _ _
  | directory children =>
    cases hopens : opens [] with
    | false =>
      rw [files_of_not_opens hopens]
      exact List.pairwise_singleton _ _
    | true =>
      rw [files, if_pos hopens, List.pairwise_flatMap]
      constructor
      · intro e he
        rw [List.pairwise_map]
        exact (pairwise_filesOf h opens e (List.mem_mergeSort.1 he)).imp List.Lex.cons
      · refine (pairwise_mergeSort_filesOf h opens).imp fun {a b} hlt x hx y hy => ?_
        obtain ⟨x, -, rfl⟩ := List.mem_map.1 hx
        obtain ⟨y, -, rfl⟩ := List.mem_map.1 hy
        exact List.Lex.rel hlt

theorem pairwise_filesOf {children : List (String × FileNode)} (h : areProper children = true)
    (opens : List String → Bool) : ∀ e ∈ filesOf opens children, e.2.Pairwise (· < ·) := by
  match children with
  | [] => exact List.forall_mem_nil _
  | (name, n) :: rest =>
    obtain ⟨-, -, hn, hrest⟩ := areProper_cons.1 h
    rw [filesOf, List.forall_mem_cons]
    exact ⟨pairwise_files hn _, pairwise_filesOf hrest opens⟩

end

/-- No two files below a node have the same names. -/
theorem nodup_files (h : n.isProper = true) : (n.files opens).Nodup :=
  (pairwise_files h opens).imp ne_of_lt

end FileNode

end DeployPlan
