import DeployPlan.Files.FileTree
import Mathlib.Data.List.Basic

/-!
# Names of files

A path goes on with names such as file systems allow. What it is joined from can be told from its
text, and it calls its file by the last of the names.
-/
namespace DeployPlan

namespace Path

/-- A name that a file can have in its directory. -/
def isName (name : String) : Bool :=
  name ≠ "" && name ≠ "." && name ≠ ".." && !name.toList.contains '/'

/-- The text of a path with a separator at its end, if it takes one to go on. -/
def stem (p : Path) : String :=
  if p.text = "" || p.endsInSeparator then p.text else p.text ++ "/"

variable {base p : Path} {name : String} {names others : List String}

theorem isName_iff : isName name = true ↔
    name ≠ "" ∧ name ≠ "." ∧ name ≠ ".." ∧ '/' ∉ name.toList := by
  simp [isName, and_assoc]

/-- A name is found from where one is. -/
theorem isAbsolute_of_isName (h : isName name = true) : (⟨name⟩ : Path).isAbsolute = false := by
  rw [isAbsolute, decide_eq_false_iff_not]
  exact fun hhead => (isName_iff.1 h).2.2.2 (List.mem_of_mem_head? hhead)

theorem text_join_of_relative (h : p.isAbsolute = false) :
    (base.join p).text = base.stem ++ p.text := by
  rw [join, if_neg (by simp [h]), stem]
  split <;> rfl

theorem text_join (h : isName name = true) : (p.join ⟨name⟩).text = p.stem ++ name :=
  text_join_of_relative (isAbsolute_of_isName h)

theorem endsInSeparator_join (p : Path) (h : isName name = true) :
    (p.join ⟨name⟩).endsInSeparator = false := by
  obtain ⟨hempty, -, -, hslash⟩ := isName_iff.1 h
  have hend : ¬ name.toList.getLast? = some '/' :=
    fun hlast => hslash (List.mem_of_getLast? hlast)
  rw [endsInSeparator, text_join h]
  simp [hempty, hend]

/-- After a name it takes a separator to go on. -/
theorem stem_join (h : isName name = true) : (p.join ⟨name⟩).stem = p.stem ++ name ++ "/" := by
  rw [stem, endsInSeparator_join p h, text_join h, if_neg]
  simp [(isName_iff.1 h).1]

theorem joinAll_cons (p : Path) (name : String) (names : List String) :
    p.joinAll (name :: names) = (p.join ⟨name⟩).joinAll names := rfl

theorem text_joinAll (h : ∀ name ∈ names, isName name = true) (hne : names ≠ []) :
    (p.joinAll names).text = p.stem ++ "/".intercalate names := by
  induction names generalizing p with
  | nil => exact absurd rfl hne
  | cons first names ih =>
    rw [List.forall_mem_cons] at h
    rw [joinAll_cons]
    cases names with
    | nil => exact (text_join h.1).trans (by rw [String.intercalate_singleton])
    | cons second names =>
      rw [ih h.2 (List.cons_ne_nil _ _), stem_join h.1, String.intercalate_cons_cons,
        String.append_assoc, String.append_assoc, String.append_assoc]

theorem joinAll_inj (h : ∀ name ∈ names, isName name = true) (hne : names ≠ [])
    (hothers : ∀ name ∈ others, isName name = true) (hne' : others ≠ [])
    (heq : (p.joinAll names).text = (p.joinAll others).text) : names = others := by
  rw [text_joinAll h hne, text_joinAll hothers hne'] at heq
  have hsplit {names : List String} (h : ∀ name ∈ names, isName name = true) (hne : names ≠ []) :
      ("/".intercalate names).toList.splitOn '/' = names.map String.toList := by
    rw [String.toList_intercalate]
    refine List.splitOn_intercalate '/' (fun cs hcs => ?_) (by simpa using hne)
    obtain ⟨name, hname, rfl⟩ := List.mem_map.1 hcs
    exact (isName_iff.1 (h name hname)).2.2.2
  have hchars : ("/".intercalate names).toList = ("/".intercalate others).toList := by
    simpa using congrArg String.toList heq
  have hmap := congrArg (List.splitOn '/') hchars
  rw [hsplit h hne, hsplit hothers hne'] at hmap
  exact List.map_injective_iff.2 (fun _ _ => String.toList_injective) hmap

/-- A text without separators is one piece. -/
theorem piecesFrom_eq_singleton {piece cs : List Char} (h : '/' ∉ cs) :
    piecesFrom piece cs = [String.ofList (piece.reverse ++ cs)] := by
  induction cs generalizing piece with
  | nil => rw [piecesFrom, List.append_nil]
  | cons c cs ih =>
    rw [List.mem_cons, not_or] at h
    rw [piecesFrom, if_neg (Ne.symm h.1), ih h.2, List.reverse_cons, List.append_assoc,
      List.singleton_append]

theorem piecesFrom_append (piece cs ds : List Char) :
    piecesFrom piece (cs ++ '/' :: ds) = piecesFrom piece cs ++ piecesFrom [] ds := by
  induction cs generalizing piece with
  | nil => simp [piecesFrom]
  | cons c cs ih =>
    rw [List.cons_append, piecesFrom, piecesFrom]
    split
    · rw [ih, List.cons_append]
    · exact ih _

theorem not_mem_of_mem_piecesFrom {piece cs : List Char} (h : '/' ∉ piece) {part : String}
    (hpart : part ∈ piecesFrom piece cs) : '/' ∉ part.toList := by
  induction cs generalizing piece with
  | nil =>
    rw [piecesFrom, List.mem_singleton] at hpart
    simpa [hpart] using h
  | cons c cs ih =>
    rw [piecesFrom] at hpart
    split at hpart
    · rcases List.mem_cons.1 hpart with rfl | hpart
      · simpa using h
      · exact ih List.not_mem_nil hpart
    · next hc => exact ih (by simp [Ne.symm hc, h]) hpart

theorem pieces_of_isName (h : isName name = true) : (⟨name⟩ : Path).pieces = [name] := by
  rw [pieces, piecesFrom_eq_singleton (isName_iff.1 h).2.2.2, List.reverse_nil, List.nil_append,
    String.ofList_toList]

/-- The pieces of a path that goes on from another one come after the pieces of that one, the empty
piece after a separator at its end left out. -/
theorem exists_pieces_join (base : Path) (h : p.isAbsolute = false) :
    ∃ front, (base.join p).pieces = front ++ p.pieces ∧
      (base.pieces = front ∨ base.pieces = front ++ [""]) := by
  rw [pieces, text_join_of_relative h, stem]
  split
  · next hstem =>
    rw [Bool.or_eq_true, decide_eq_true_iff, endsInSeparator, decide_eq_true_iff] at hstem
    rcases hstem with hempty | hend
    · refine ⟨[], by rw [hempty, String.empty_append, List.nil_append]; rfl, Or.inr ?_⟩
      rw [pieces, hempty]
      rfl
    · obtain ⟨above, habove⟩ := List.getLast?_eq_some_iff.1 hend
      refine ⟨piecesFrom [] above, ?_, Or.inr ?_⟩
      · rw [String.toList_append, habove, List.append_assoc, List.singleton_append,
          piecesFrom_append]
        rfl
      · rw [pieces, habove, piecesFrom_append]
        rfl
  · refine ⟨piecesFrom [] base.text.toList, ?_, Or.inl rfl⟩
    have hchars : (base.text ++ "/" ++ p.text).toList =
        base.text.toList ++ '/' :: p.text.toList := by
      simp
    rw [hchars, piecesFrom_append]
    rfl

/-- A file that a path leads to is called by the name that comes last. -/
theorem fileName?_join (p : Path) (h : isName name = true) :
    (p.join ⟨name⟩).fileName? = some name := by
  obtain ⟨front, hpieces, -⟩ := exists_pieces_join p (isAbsolute_of_isName h)
  obtain ⟨hempty, hdot, hdots, -⟩ := isName_iff.1 h
  have hkept : [name].filter (fun piece => !isIdle piece) = [name] := by
    simp [isIdle, hempty, hdot]
  rw [fileName?, hpieces, pieces_of_isName h, List.filter_append, hkept, List.getLast?_concat]
  simp [hdots]

/-- Whatever a path calls a file is a name. -/
theorem isName_of_fileName? (h : p.fileName? = some name) : isName name = true := by
  unfold fileName? at h
  split at h
  · next part hpart =>
    split at h
    · cases h
    · next hdots =>
      cases h
      obtain ⟨hpiece, hbusy⟩ := List.mem_filter.1 (List.mem_of_getLast? hpart)
      have hidle : name ≠ "" ∧ name ≠ "." := by simpa [isIdle] using hbusy
      have hslash : '/' ∉ name.toList := not_mem_of_mem_piecesFrom List.not_mem_nil hpiece
      exact isName_iff.2 ⟨hidle.1, hidle.2, hdots, hslash⟩
  · cases h

theorem fileName?_joinAll (p : Path) (h : ∀ name ∈ names, isName name = true) :
    (p.joinAll names).fileName? = names.getLast?.or p.fileName? := by
  induction names generalizing p with
  | nil => rfl
  | cons first names ih =>
    rw [List.forall_mem_cons] at h
    rw [joinAll_cons, ih _ h.2, fileName?_join p h.1]
    cases names with
    | nil => rfl
    | cons second names => simp [List.getLast?_cons]

end Path

end DeployPlan
