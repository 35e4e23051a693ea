import DeployPlan.Proofs.Files.Distinct
import DeployPlan.Proofs.Files.Place
import Mathlib.Data.Prod.Lex

/-!
# Listed files

Paths are compared component by component. A listing goes into each directory where this one stands
among its siblings, and every directory is sorted for itself; still the paths of the whole listing
are in order, since two of them first differ by the names of two siblings. If all directories can be
read, each node below the listed directory that is no directory is listed once, and nothing else is.
-/
namespace DeployPlan

namespace Path

/-- A part of a path, as paths are compared by it. -/
inductive Component where
  | root
  | here
  | above
  | named (name : String)
deriving DecidableEq, Repr

namespace Component

/-- What decides between two components: names come last, and are in their own order. -/
def rank : Component → ℕ ×ₗ String
  | root => toLex (0, "")
  | here => toLex (1, "")
  | above => toLex (2, "")
  | named name => toLex (3, name)

theorem rank_injective : Function.Injective rank := by
  intro a b h
  cases a <;> cases b <;> simp_all [rank]

instance : LinearOrder Component := LinearOrder.lift' rank rank_injective

theorem named_lt_named {name other : String} (h : name < other) : named name < named other :=
  Prod.Lex.right 3 h

/-- The component that a text between separators is, if it is one. -/
def ofPiece? (piece : String) : Option Component :=
  if isIdle piece then none else if piece = ".." then some above else some (named piece)

end Component

/-- The components of a path. The directory itself is one only where it comes first. -/
def components (p : Path) : List Component :=
  (if p.isAbsolute then [.root] else if p.pieces.head? = some "." then [.here] else []) ++
    p.pieces.filterMap Component.ofPiece?

variable {p : Path} {name : String} {names others : List String}

theorem components_join (p : Path) (h : isName name = true) :
    (p.join ⟨name⟩).components = p.components ++ [.named name] := by
  obtain ⟨hempty, hdot, hdots, -⟩ := isName_iff.1 h
  obtain ⟨front, hjoin, hpieces⟩ := exists_pieces_join p (isAbsolute_of_isName h)
  rw [pieces_of_isName h] at hjoin
  have hname : Component.ofPiece? name = some (.named name) := by
    simp [Component.ofPiece?, isIdle, hempty, hdot, hdots]
  have hidle : Component.ofPiece? "" = none := rfl
  have hparts : p.pieces.filterMap Component.ofPiece? = front.filterMap Component.ofPiece? := by
    rcases hpieces with hpieces | hpieces <;> simp [hpieces, hidle]
  have hhead : (front ++ [name]).head? = some "." ↔ p.pieces.head? = some "." := by
    cases front <;> rcases hpieces with hpieces | hpieces <;> simp [hpieces, hdot]
  rw [components, isAbsolute_join (isAbsolute_of_isName h), hjoin, List.filterMap_append,
    components, hparts, List.append_assoc]
  simp only [hhead, List.filterMap_cons, hname, List.filterMap_nil]

theorem components_joinAll (p : Path) (h : ∀ name ∈ names, isName name = true) :
    (p.joinAll names).components = p.components ++ names.map .named := by
  induction names generalizing p with
  | nil => exact (List.append_nil _).symm
  | cons first names ih =>
    rw [List.forall_mem_cons] at h
    rw [joinAll_cons, ih _ h.2, components_join p h.1, List.append_assoc, List.map_cons,
      List.singleton_append]

/-- What comes first by its names below a path comes first as a path. -/
theorem components_joinAll_lt (p : Path) (h : ∀ name ∈ names, isName name = true)
    (hothers : ∀ name ∈ others, isName name = true) (hlt : names < others) :
    (p.joinAll names).components < (p.joinAll others).components := by
  rw [components_joinAll p h, components_joinAll p hothers]
  exact List.append_left_lt (List.map_lt (fun _ _ => Component.named_lt_named) hlt)

theorem names_joinAll (p : Path) (h : ∀ name ∈ names, isName name = true) :
    (p.joinAll names).names = p.names ++ names := by
  induction names generalizing p with
  | nil => exact (List.append_nil _).symm
  | cons first names ih =>
    rw [List.forall_mem_cons] at h
    have hpiece : (⟨first⟩ : Path).names = [first] := by
      rw [Path.names, pieces_of_isName h.1]
      simp [(isName_iff.1 h.1).1]
    rw [joinAll_cons, ih _ h.2, names_join (isAbsolute_of_isName h.1), hpiece, List.append_assoc,
      List.singleton_append]

theorem isAbsolute_joinAll (p : Path) (h : ∀ name ∈ names, isName name = true) :
    (p.joinAll names).isAbsolute = p.isAbsolute := by
  induction names generalizing p with
  | nil => rfl
  | cons first names ih =>
    rw [List.forall_mem_cons] at h
    rw [joinAll_cons, ih _ h.2, isAbsolute_join (isAbsolute_of_isName h.1)]

/-- A path that goes on with names does not ask for a directory. -/
theorem steps_joinAll (p : Path) (h : ∀ name ∈ names, isName name = true) (hne : names ≠ []) :
    (p.joinAll names).steps = p.names ++ names := by
  have hend : (p.joinAll names).endsInSeparator = false := by
    rw [← List.dropLast_concat_getLast hne, joinAll, List.foldl_concat]
    exact endsInSeparator_join _ (h _ (List.getLast_mem hne))
  rw [steps, if_neg (by simp [hend]), names_joinAll p h]

end Path

namespace Walk

variable {w w' w'' : Walk} {k : FileNode} {name : String} {names others : List String}

theorem follow_append_eq_ok : w.follow (names ++ others) = .ok w'' ↔
    ∃ w', w.follow names = .ok w' ∧ w'.follow others = .ok w'' := by
  induction names generalizing w with
  | nil => simp [follow]
  | cons name names ih =>
    rw [List.cons_append, follow, follow]
    cases w.step name with
    | error e => simp
    | ok w₁ => exact ih

/-- To stay where one is takes a directory. -/
theorem eq_of_step_here (h : w.step "." = .ok w') : w' = w := by
  obtain ⟨children, -, hcases⟩ := step_cases h
  rcases hcases with ⟨-, rfl⟩ | ⟨-, -, rfl⟩ | ⟨hdots, -⟩ | ⟨hdot, -⟩
  · rfl
  · rfl
  · exact absurd hdots (by decide)
  · exact absurd rfl hdot

theorem child?_of_step (hname : Path.isName name = true) (h : w.step name = .ok w') :
    FileNode.child? name w.reached.childrenOf = some w'.reached := by
  obtain ⟨-, hdot, hdots, -⟩ := Path.isName_iff.1 hname
  obtain ⟨children, hreached, hcases⟩ := step_cases h
  rcases hcases with ⟨hdot', -⟩ | ⟨hdots', -⟩ | ⟨hdots', -⟩ | ⟨-, -, n, hn, rfl⟩
  · exact absurd hdot' hdot
  · exact absurd hdots' hdots
  · exact absurd hdots' hdots
  · rw [hreached]
    exact hn

/-- The names of a node lead to the node, if they can be followed. -/
theorem reached_of_follow (hproper : w.reached.isProper = true) (hk : (names, k) ∈ w.reached.nodes)
    (h : w.follow names = .ok w') : w'.reached = k := by
  induction names generalizing w with
  | nil =>
    cases h
    exact (FileNode.mem_nodes_nil.1 hk).symm
  | cons name names ih =>
    obtain ⟨m, hm, hk⟩ := FileNode.mem_nodes_cons.1 hk
    obtain ⟨hdistinct, hchildren⟩ :=
      FileNode.areProper_iff.1 (FileNode.areProper_childrenOf hproper)
    rw [follow] at h
    split at h
    · next w₁ hstep =>
      have hchild := child?_of_step (hchildren _ hm).1 hstep
      rw [FileNode.child?_of_mem hdistinct hm, Option.some_inj] at hchild
      subst hchild
      exact ih (hchildren _ hm).2 hk h
    · cases h

end Walk

namespace FileTree

variable {t : FileTree} {p : Path} {n k k' : FileNode} {children : List (String × FileNode)}
  {names others : List String} {w : Walk}

theorem follow_append_eq_ok {absolute : Bool} : t.follow absolute (names ++ others) = .ok w ↔
    ∃ w', t.follow absolute names = .ok w' ∧ w'.follow others = .ok w := by
  cases absolute with
  | false =>
    rw [follow, if_neg Bool.false_ne_true, ← List.append_assoc]
    exact Walk.follow_append_eq_ok
  | true => exact Walk.follow_append_eq_ok

/-- A separator at the end of a path changes nothing where there is a directory. -/
theorem follow_names (h : t.follow p.isAbsolute p.steps = .ok w) :
    t.follow p.isAbsolute p.names = .ok w := by
  rw [Path.steps] at h
  split at h
  · obtain ⟨w', hw', hhere⟩ := follow_append_eq_ok.1 h
    rw [Walk.follow] at hhere
    split at hhere
    · next w₁ hstep =>
      cases hhere
      rwa [Walk.eq_of_step_here hstep]
    · cases hhere
  · exact h

/-- The path of a node below another one leads to the node, if it leads anywhere. -/
theorem eq_of_node?_joinAll (hn : t.node? p = some n) (hproper : n.isProper = true)
    (hk : (names, k) ∈ n.nodes) (h : t.node? (p.joinAll names) = some k') : k' = k := by
  have hnames := FileNode.isName_of_mem_nodes hproper hk
  by_cases hne : names = []
  · subst hne
    rw [FileNode.mem_nodes_nil.1 hk]
    exact Option.some_inj.1 (h.symm.trans hn)
  · obtain ⟨-, w, hw, rfl⟩ := follow_of_node? hn
    obtain ⟨-, w', hw', rfl⟩ := follow_of_node? h
    rw [Path.steps_joinAll p hnames hne, Path.isAbsolute_joinAll p hnames,
      follow_append_eq_ok] at hw'
    obtain ⟨w₁, hw₁, hfollow⟩ := hw'
    obtain rfl := Except.ok.inj ((follow_names hw).symm.trans hw₁)
    exact Walk.reached_of_follow hproper hk hfollow

/-- How a list of paths tells what is below a directory. -/
structure Lists (t : FileTree) (p : Path) (n : FileNode) (files : List Path) : Prop where
  /-- Each node that is no directory is listed once, and nothing else is. -/
  perm : files.Perm ((n.nodes.filter fun e => !e.2.isDirectory).map fun e => p.joinAll e.1)
  /-- No path that is listed leads to a directory. -/
  noDirectory : ∀ file ∈ files, t.isDirectory file = false
  /-- By their components, all paths come before those that are listed after them. -/
  sorted : (files.map Path.components).Pairwise (· < ·)

/-- Only one list tells what is below a directory. -/
theorem Lists.unique {files others : List Path} (h : t.Lists p n files) (h' : t.Lists p n others) :
    files = others :=
  (h.perm.trans h'.perm.symm).eq_of_pairwise (fun _ _ _ _ hlt hgt => absurd hgt (lt_asymm hlt))
    (List.pairwise_map.1 h.sorted) (List.pairwise_map.1 h'.sorted)

/-- If all directories can be read, the files below a node are the nodes that are no directories. -/
theorem filesBelow_perm_nodes (hn : t.node? p = some n)
    (hread : ∀ e ∈ n.nodes, e.2.isDirectory = true → t.isDirectory (p.joinAll e.1) = true) :
    (t.filesBelow p).Perm
      ((n.nodes.filter fun e => !e.2.isDirectory).map fun e => p.joinAll e.1) := by
  have hopens : ∀ e ∈ n.nodes, e.2.isDirectory = true → (p.joinAll e.1).isShort = true := by
    intro e he hdirectory
    obtain ⟨_, hreached⟩ := exists_of_isDirectory (hread e he hdirectory)
    exact (follow_of_node? hreached).1
  have hfiles := FileNode.files_perm_nodes (fun names => (p.joinAll names).isShort) hopens
  have hpaths := hfiles.map p.joinAll
  rw [List.map_map] at hpaths
  rw [filesBelow_eq hn]
  exact hpaths

/-- What is listed is found to be no directory. -/
theorem not_isDirectory_of_mem_filesBelow (hn : t.node? p = some n) (hproper : n.isProper = true)
    {file : Path} (h : file ∈ t.filesBelow p) : t.isDirectory file = false := by
  rw [filesBelow_eq hn] at h
  obtain ⟨names, hnames, rfl⟩ := List.mem_map.1 h
  obtain ⟨k, hk, hlooked⟩ := FileNode.exists_node_of_mem_files hnames
  by_contra hdirectory
  rw [Bool.not_eq_false] at hdirectory
  obtain ⟨children, hreached⟩ := exists_of_isDirectory hdirectory
  have hkind := eq_of_node?_joinAll hn hproper hk hreached
  -- A directory stands with the files only if its path is too long, and then it leads nowhere.
  have hlong := hlooked (hkind ▸ rfl)
  rw [(follow_of_node? hreached).1] at hlong
  cases hlong

/-- A listing is in order as a whole. -/
theorem pairwise_components_filesBelow (hn : t.node? p = some n) (hproper : n.isProper = true) :
    ((t.filesBelow p).map Path.components).Pairwise (· < ·) := by
  rw [filesBelow_eq hn, List.map_map, List.pairwise_map]
  refine (FileNode.pairwise_files hproper _).imp_of_mem fun hnames hothers hlt => ?_
  exact Path.components_joinAll_lt p (FileNode.isName_of_mem_files hproper hnames)
    (FileNode.isName_of_mem_files hproper hothers) hlt

/-- If all directories below a directory can be read, there is a listing of it, and this holds each
node below it that is no directory once and nothing else, in strict order of their paths' components
over the whole. -/
theorem listing_lists (hn : t.node? p = some (.directory children))
    (hproper : (FileNode.directory children).isProper = true)
    (hread : ∀ e ∈ (FileNode.directory children).nodes, e.2.isDirectory = true →
      t.isDirectory (p.joinAll e.1) = true) :
    ∃ files, t.listing p = .ok files ∧ t.Lists p (.directory children) files := by
  have hdirectory : t.isDirectory p = true := by
    rw [isDirectory, hn]
    rfl
  refine ⟨t.filesBelow p, listing_eq_ok_iff.2 ⟨hdirectory, rfl⟩, ?_⟩
  constructor
  case perm => exact filesBelow_perm_nodes hn hread
  case noDirectory => exact fun file => not_isDirectory_of_mem_filesBelow hn hproper
  case sorted => exact pairwise_components_filesBelow hn hproper

/-- A directory with a file, and with two others whose names begin alike. -/
def shelf : FileNode :=
  .directory [("b.conf", .file "b".toUTF8), ("a.d", .directory [("x", .file "x".toUTF8)]),
    ("a", .directory [("z", .file "z".toUTF8), ("empty", .directory []), ("null", .device)])]

def shelfTree : FileTree := ⟨.directory [("data", shelf)], []⟩

/-- The files of one directory stand together, though a dot comes before a separator. -/
theorem listing_shelfTree : shelfTree.node? ⟨"data"⟩ = some shelf ∧ shelf.isProper = true ∧
    (∀ e ∈ shelf.nodes, e.2.isDirectory = true →
      shelfTree.isDirectory (Path.joinAll ⟨"data"⟩ e.1) = true) ∧
    shelfTree.listing ⟨"data"⟩ =
      .ok [⟨"data/a/null"⟩, ⟨"data/a/z"⟩, ⟨"data/a.d/x"⟩, ⟨"data/b.conf"⟩] := by
  have hnode : shelfTree.node? ⟨"data"⟩ = some shelf := rfl
  have hproper : shelf.isProper = true := by decide +kernel
  have hread : ∀ e ∈ shelf.nodes, e.2.isDirectory = true →
      shelfTree.isDirectory (Path.joinAll ⟨"data"⟩ e.1) = true := by decide +kernel
  obtain ⟨files, hfiles, hlists⟩ := listing_lists hnode hproper hread
  have hall : files = [⟨"data/a/null"⟩, ⟨"data/a/z"⟩, ⟨"data/a.d/x"⟩, ⟨"data/b.conf"⟩] := by
    apply hlists.unique
    constructor
    case perm => decide +kernel
    case noDirectory => decide +kernel
    case sorted => decide +kernel
  refine ⟨hnode, hproper, hread, ?_⟩
  rw [hfiles, hall]

end FileTree

end DeployPlan
