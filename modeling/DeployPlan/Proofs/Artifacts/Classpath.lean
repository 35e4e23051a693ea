import DeployPlan.Artifacts
import Mathlib

/-!
# The scheme of the search paths

A reference is recognised by its scheme in any case of letters, unless it has two slashes after the
scheme and no well-formed authority after these: then the whole of it is a path. The scheme is cut
off a reference that is recognised and has the scheme in lower case. From any other the whole is
looked for.
-/
namespace DeployPlan

namespace Reference

/-- A scheme is the one of the search paths up to the case of its letters. -/
def IsClasspath (scheme : String) : Prop :=
  scheme.toList.map Char.toLower = "classpath".toList

instance (scheme : String) : Decidable (IsClasspath scheme) := inferInstanceAs (Decidable (_ = _))

/-- The characters after the colon of a scheme that parsing looks at. -/
def significantRest (rest : String) : List Char :=
  ((rest.toList.reverse.dropWhile isEdge).reverse).filter fun c => !isIgnored c

/-- Two slashes are followed by an authority that is not well formed. -/
def IsMalformed (rest : String) : Prop :=
  ∃ place, significantRest rest = '/' :: '/' :: place ∧
    let authority := place.takeWhile fun c => !endsAuthority false c
    isAuthority false (authority.length < place.length) authority = false

variable {scheme rest : String} {cs ds : List Char} {c : Char}

theorem isMalformed_iff : IsMalformed rest ↔
    isUrlRest "classpath" (significantRest rest) = false := by
  have hhost : hostSchemes.contains "classpath" = false := by decide
  unfold IsMalformed isUrlRest
  rw [hhost, if_neg Bool.false_ne_true]
  split
  · next place hplace =>
    constructor
    · rintro ⟨place', heq, hbad⟩
      rw [hplace] at heq
      cases heq
      exact hbad
    · intro hbad
      exact ⟨place, hplace, hbad⟩
  · next hother =>
    constructor
    · rintro ⟨place, heq, -⟩
      exact absurd heq (hother place)
    · intro hfalse
      cases hfalse

instance (rest : String) : Decidable (IsMalformed rest) :=
  decidable_of_iff _ isMalformed_iff.symm

theorem isSchemeChar_of_isAlpha (h : c.isAlpha = true) : isSchemeChar c = true := by
  simp [isSchemeChar, Char.isAlphanum, h]

theorem isEdge_of_isAlpha (h : c.isAlpha = true) : isEdge c = false := by
  simp only [Char.isAlpha, Char.isUpper, Char.isLower, Bool.or_eq_true, Bool.and_eq_true,
    decide_eq_true_eq, UInt32.le_iff_toNat_le] at h
  have hc : c.toNat = c.val.toNat := rfl
  have hA : 'A'.val.toNat = 65 := rfl
  have ha : 'a'.val.toNat = 97 := rfl
  rw [isEdge, decide_eq_false_iff_not]
  omega

/-- What parsing ignores it also drops at the ends. -/
theorem isEdge_of_isIgnored (h : isIgnored c = true) : isEdge c = true := by
  simp only [isIgnored, Bool.or_eq_true, decide_eq_true_eq] at h
  rcases h with (rfl | rfl) | rfl <;> decide

theorem isIgnored_of_isAlpha (h : c.isAlpha = true) : isIgnored c = false := by
  have hedge := isEdge_of_isAlpha h
  by_contra hne
  rw [Bool.not_eq_false] at hne
  rw [isEdge_of_isIgnored hne] at hedge
  cases hedge

theorem IsClasspath.isAlpha (h : IsClasspath scheme) : ∀ c ∈ scheme.toList, c.isAlpha = true := by
  intro c hc
  have hlowered : c.toLower ∈ "classpath".toList := by
    rw [← h]
    exact List.mem_map_of_mem hc
  have hall : "classpath".toList.all Char.isAlpha = true := by decide
  rw [← Char.isAlpha_toLower_eq_isAlpha]
  exact List.all_eq_true.1 hall _ hlowered

theorem IsClasspath.length_eq (h : IsClasspath scheme) : scheme.toList.length = 9 := by
  have hlength := congrArg List.length h
  rw [List.length_map] at hlength
  exact hlength

theorem IsClasspath.ne_nil (h : IsClasspath scheme) : scheme.toList ≠ [] := by
  intro hnil
  have hlength := h.length_eq
  rw [hnil] at hlength
  cases hlength

theorem toList_reference (scheme rest : String) :
    (scheme ++ ":" ++ rest).toList = scheme.toList ++ ':' :: rest.toList := by
  simp

/-- Of a reference with a scheme of letters parsing looks at the scheme, the colon, and what is
significant after it. -/
theorem significant_reference (h : ∀ c ∈ scheme.toList, c.isAlpha = true)
    (hne : scheme.toList ≠ []) : significant (scheme ++ ":" ++ rest).toList =
      scheme.toList ++ ':' :: significantRest rest := by
  have hstart (ds : List Char) :
      (scheme.toList ++ ds).dropWhile isEdge = scheme.toList ++ ds := by
    obtain ⟨c, cs, hcons⟩ := List.exists_cons_of_ne_nil hne
    have hc : isEdge c = false := isEdge_of_isAlpha (h c (by simp [hcons]))
    rw [hcons, List.cons_append, List.dropWhile_cons, hc]
    rfl
  have hend : ((':' :: rest.toList).reverse ++ scheme.toList.reverse).dropWhile isEdge =
      rest.toList.reverse.dropWhile isEdge ++ (':' :: scheme.toList.reverse) := by
    have hcolon : isEdge ':' = false := by decide
    rw [List.reverse_cons, List.append_assoc, List.singleton_append, List.dropWhile_append]
    split
    · next hall =>
      rw [List.isEmpty_iff.1 hall, List.nil_append, List.dropWhile_cons, hcolon]
      rfl
    · rfl
  have hkept : scheme.toList.filter (fun c => !isIgnored c) = scheme.toList := by
    refine List.filter_eq_self.2 fun c hc => ?_
    rw [isIgnored_of_isAlpha (h c hc)]
    rfl
  have hcolon : isIgnored ':' = false := by decide
  rw [toList_reference, significant, hstart, List.reverse_append, hend, List.reverse_append,
    List.filter_append, List.reverse_cons, List.reverse_reverse, List.filter_append, hkept,
    significantRest]
  simp [hcolon]

theorem splitScheme?_reference (h : ∀ c ∈ cs, c.isAlpha = true) (hne : cs ≠ []) :
    splitScheme? (cs ++ ':' :: ds) = some (String.ofList (cs.map Char.toLower), ds) := by
  have hscheme : ∀ c ∈ cs, isSchemeChar c = true := fun c hc => isSchemeChar_of_isAlpha (h c hc)
  have hcolon : isSchemeChar ':' = false := by decide
  have hdrop : (cs ++ ':' :: ds).dropWhile isSchemeChar = ':' :: ds := by
    rw [List.dropWhile_append_of_pos hscheme, List.dropWhile_cons, hcolon]
    rfl
  have htake : (cs ++ ':' :: ds).takeWhile isSchemeChar = cs := by
    rw [List.takeWhile_append_of_pos hscheme, List.takeWhile_cons, hcolon]
    simp
  obtain ⟨c, rest, rfl⟩ := List.exists_cons_of_ne_nil hne
  have hc : c.isAlpha = true := h c List.mem_cons_self
  unfold splitScheme?
  rw [hdrop, htake]
  simp [hc]

/-- A reference with the scheme of the search paths is recognised unless it is malformed. -/
theorem classify_reference (h : IsClasspath scheme) (rest : String) :
    classify (scheme ++ ":" ++ rest) = if IsMalformed rest then .path else .classpath := by
  have hlowered : String.ofList (scheme.toList.map Char.toLower) = "classpath" := by
    rw [h]
    rfl
  have hlength : ¬ "classpath".length ≤ 1 := by decide
  have hfile : ("classpath" = "file") = False := by decide
  rw [classify, significant_reference h.isAlpha h.ne_nil,
    splitScheme?_reference h.isAlpha h.ne_nil, hlowered]
  simp only [if_neg hlength, hfile, if_false, if_true]
  by_cases hbad : IsMalformed rest
  · have hrest : ¬ isUrlRest "classpath" (significantRest rest) = true := by
      rw [isMalformed_iff.1 hbad]
      exact Bool.false_ne_true
    rw [if_neg hrest, if_pos hbad]
  · have hrest : isUrlRest "classpath" (significantRest rest) = true := by
      rwa [isMalformed_iff, Bool.not_eq_false] at hbad
    rw [if_pos hrest, if_neg hbad]

/-- Only the scheme in lower case is seen at the start. -/
theorem afterStart?_reference (h : IsClasspath scheme) (rest : String) :
    Text.afterStart? "classpath:" (scheme ++ ":" ++ rest) =
      if scheme = "classpath" then some rest else none := by
  rw [Text.afterStart?, toList_reference]
  by_cases hscheme : scheme = "classpath"
  · rw [if_pos hscheme, hscheme]
    simp
  · rw [if_neg hscheme, if_neg]
    intro hstart
    rw [List.isPrefixOf_iff_prefix] at hstart
    have htake := congrArg (List.take 9) (List.prefix_iff_eq_take.1 hstart)
    rw [List.take_take, List.take_append_of_le_length (by simp [h.length_eq])] at htake
    have hwhole : scheme.toList.take 9 = scheme.toList := by
      rw [← h.length_eq, List.take_length]
    exact hscheme (String.toList_injective (hwhole.symm.trans htake.symm))

/-- There is no slash to drop before a scheme. -/
theorem dropLeading_reference (h : IsClasspath scheme) (rest : String) :
    Text.dropLeading '/' (scheme ++ ":" ++ rest) = scheme ++ ":" ++ rest := by
  obtain ⟨c, cs, hcons⟩ := List.exists_cons_of_ne_nil h.ne_nil
  have halpha : c.isAlpha = true := h.isAlpha c (by simp [hcons])
  have hc : ¬ (c == '/') = true := by
    intro hslash
    rw [beq_iff_eq.1 hslash] at halpha
    exact absurd halpha (by decide)
  have hchars : (scheme ++ ":" ++ rest).toList = c :: (cs ++ ':' :: rest.toList) := by
    rw [toList_reference, hcons, List.cons_append]
  rw [Text.dropLeading, hchars, List.dropWhile_cons, if_neg hc, ← hchars, String.ofList_toList]

/-- The scheme is cut off where it is written in lower case. -/
theorem classpathPath_reference (h : IsClasspath scheme) (rest : String) :
    classpathPath (scheme ++ ":" ++ rest) =
      if scheme = "classpath" then Text.dropLeading '/' rest else scheme ++ ":" ++ rest := by
  rw [classpathPath, afterStart?_reference h]
  split
  · rw [Option.getD_some]
  · rw [Option.getD_none, dropLeading_reference h]

/-- What is cut off a reference is gone. -/
theorem dropLeading_ne_reference (scheme rest : String) :
    Text.dropLeading '/' rest ≠ scheme ++ ":" ++ rest := by
  intro heq
  have hlength := congrArg (fun s => s.toList.length) heq
  have hle := (List.dropWhile_suffix (l := rest.toList) (· == '/')).length_le
  simp only [Text.dropLeading, String.toList_ofList, toList_reference, List.length_append,
    List.length_cons] at hlength
  omega

theorem archivePath?_reference (h : IsClasspath scheme) (rest : String) :
    archivePath? (scheme ++ ":" ++ rest) = some (if scheme = "classpath" ∧ ¬ IsMalformed rest then
      Text.dropLeading '/' rest else scheme ++ ":" ++ rest) := by
  rw [archivePath?, classify_reference h]
  by_cases hbad : IsMalformed rest
  · rw [if_pos hbad, if_neg fun hboth => hboth.2 hbad]
  · rw [if_neg hbad, classpathPath_reference h]
    simp only [hbad, not_false_eq_true, and_true]

theorem load_reference (h : IsClasspath scheme) (rest : String) (s : ArtifactSettings)
    (t : Store) : s.load t (scheme ++ ":" ++ rest) =
      if IsMalformed rest then s.loadPath t.toFileTree (scheme ++ ":" ++ rest)
      else s.search t.toFileTree
        (if scheme = "classpath" then Text.dropLeading '/' rest else scheme ++ ":" ++ rest) := by
  rw [ArtifactSettings.load, classify_reference h]
  by_cases hbad : IsMalformed rest
  · rw [if_pos hbad, if_pos hbad]
  · rw [if_neg hbad, if_neg hbad, classpathPath_reference h]

/-- A reference with the scheme of the search paths, in any case of letters. The path after the
scheme is asked of archives, and then also of the search paths, exactly when the scheme is written
in lower case and what follows is not malformed. Else the whole reference is asked of archives; of
the search paths too, and of the working directory as well if it is malformed. -/
theorem path_of_isClasspath (h : IsClasspath scheme) (rest : String)
    (s : ArtifactSettings) (t : Store) :
    let reference := scheme ++ ":" ++ rest
    let relative := Text.dropLeading '/' rest
    (archivePath? reference = some relative ↔ scheme = "classpath" ∧ ¬ IsMalformed rest) ∧
    (archivePath? reference = some relative → s.load t reference = s.search t.toFileTree relative) ∧
    (archivePath? reference ≠ some relative → archivePath? reference = some reference ∧
      s.load t reference =
        if IsMalformed rest then s.loadPath t.toFileTree reference
        else s.search t.toFileTree reference) := by
  intro reference relative
  have hne : relative ≠ reference := dropLeading_ne_reference scheme rest
  have harchive := archivePath?_reference h rest
  have hload := load_reference h rest s t
  have hiff : archivePath? reference = some relative ↔
      scheme = "classpath" ∧ ¬ IsMalformed rest := by
    rw [harchive]
    split
    · next hboth => exact iff_of_true rfl hboth
    · next hother => exact iff_of_false (fun heq => hne (Option.some.inj heq).symm) hother
  refine ⟨hiff, fun heq => ?_, fun hother => ?_⟩
  · obtain ⟨hscheme, hgood⟩ := hiff.1 heq
    rw [hload, if_neg hgood, if_pos hscheme]
  · rw [Ne, hiff] at hother
    rw [harchive, hload, if_neg hother]
    refine ⟨rfl, ?_⟩
    split
    · rfl
    · next hgood => rw [if_neg fun hscheme => hother ⟨hscheme, hgood⟩]

def searchSettings : ArtifactSettings := ⟨⟨"repo"⟩, "expanded", [⟨"lib"⟩], false⟩

def searchTree : FileTree :=
  (FileTree.emptyAt []).put ⟨"lib/install.sh"⟩ (.file "install".toUTF8)

/-- Slashes after the scheme are left out, and a name between them is a part of the path. -/
theorem path_scripts : IsClasspath "classpath" ∧
    archivePath? "classpath:///install.sh" = some "install.sh" ∧
    searchSettings.load searchTree "classpath:///install.sh" =
      searchSettings.search searchTree "install.sh" ∧
    archivePath? "classpath://scripts/install.sh" = some "scripts/install.sh" := by
  have hscheme : IsClasspath "classpath" := by decide +kernel
  have hslashes := path_of_isClasspath hscheme "///install.sh" searchSettings searchTree
  have hname := path_of_isClasspath hscheme "//scripts/install.sh" searchSettings searchTree
  have hrelative : archivePath? "classpath:///install.sh" = some "install.sh" :=
    hslashes.1.2 ⟨rfl, by decide +kernel⟩
  exact ⟨hscheme, hrelative, hslashes.2.1 hrelative, hname.1.2 ⟨rfl, by decide +kernel⟩⟩

/-- In capitals the scheme stays a part of the path, and so it does before an authority with a
space. The script on the search path is found in lower case only. -/
theorem not_path_capitals :
    IsClasspath "CLASSPATH" ∧
    archivePath? "CLASSPATH:install.sh" = some "CLASSPATH:install.sh" ∧
    Text.dropLeading '/' "install.sh" = "install.sh" ∧
    (searchSettings.load searchTree "classpath:install.sh").toOption = some "install" ∧
    (searchSettings.load searchTree "CLASSPATH:install.sh").toOption = none ∧
    IsMalformed "//my scripts/install.sh" ∧
    archivePath? "classpath://my scripts/install.sh" = some "classpath://my scripts/install.sh" ∧
    Text.dropLeading '/' "//my scripts/install.sh" = "my scripts/install.sh" := by
  decide +kernel

end Reference

end DeployPlan
