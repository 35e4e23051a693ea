import DeployPlan.Artifacts
import Mathlib.Data.List.Basic

/-!
# Searching for scripts

A relative reference may be below one of the search paths, or in the working directory. The first of
these places with a file decides, except that a file on the search paths that is no text is passed
over for the working directory: then nothing tells of it. A URL of another machine gives what that
machine sends, and it is asked for nothing else.
-/
namespace DeployPlan

namespace FileTree

variable {t : FileTree} {p : Path}

/-- A file is text or it is not. -/
theorem readText_of_isFile (h : t.isFile p = true) :
    (∃ text, t.readText p = .ok text) ∨ t.readText p = .error .notText := by
  rw [isFile, node?] at h
  rw [readText]
  cases hw : t.walk p with
  | error e =>
    rw [hw] at h
    cases h
  | ok w =>
    simp only [hw, Option.any_some] at h
    cases hn : w.reached with
    | directory children =>
      rw [hn] at h
      cases h
    | device =>
      rw [hn] at h
      cases h
    | file content =>
      simp only [hn]
      cases String.fromUTF8? content with
      | some text => exact .inl ⟨text, rfl⟩
      | none => exact .inr rfl

theorem script_of_ok {text : String} (h : t.readText p = .ok text) : t.script p = .ok text := by
  rw [script, h]

theorem script_of_error {e : FileError} (h : t.readText p = .error e) :
    t.script p = .error (unreadable p e) := by
  rw [script, h]

end FileTree

/-- Why a file cannot be read tells its path. -/
theorem eq_of_unreadable {p q : Path} {e e' : FileError} (h : unreadable p e = unreadable q e') :
    p = q := by
  unfold unreadable at h
  have htext := (Failure.within.inj h).1
  have hchars := congrArg String.toList htext
  simp only [toString, String.toList_append, List.append_cancel_left_eq,
    String.toList_inj] at hchars
  cases p
  cases q
  cases hchars
  rfl

namespace ArtifactSettings

/-- Where a relative reference may be, in the order of preference. -/
def searchOrder (s : ArtifactSettings) (reference : String) : List Path :=
  s.searchPaths.map (·.join ⟨reference⟩) ++ [⟨reference⟩]

/-- The failure to find a file for a reference. -/
def missing (reference : String) : Failure := .plain s!"{reference} not found"

/-- What the first of these places with a file gives: its text, or why it cannot be read. -/
def firstFile (s : ArtifactSettings) (t : FileTree) (reference : String) :
    Except Failure String :=
  match (s.searchOrder reference).find? t.isFile with
  | some p => t.script p
  | none => .error (missing reference)

/-- What the working directory alone gives. -/
def localFile (t : FileTree) (reference : String) : Except Failure String :=
  if t.isFile ⟨reference⟩ then t.script ⟨reference⟩ else .error (missing reference)

variable {s : ArtifactSettings} {t : FileTree} {store : Store} {reference : String} {p : Path}

theorem isFile_of_searchPath? (h : s.searchPath? t reference = some p) : t.isFile p = true :=
  List.find?_some h

theorem firstFile_of_some (h : s.searchPath? t reference = some p) :
    s.firstFile t reference = t.script p := by
  rw [searchPath?] at h
  rw [firstFile, searchOrder, List.find?_append, h, Option.some_or]

theorem firstFile_of_none (h : s.searchPath? t reference = none) :
    s.firstFile t reference = localFile t reference := by
  rw [searchPath?] at h
  rw [firstFile, searchOrder, List.find?_append, h, Option.none_or, localFile, List.find?_singleton]
  by_cases hlocal : t.isFile ⟨reference⟩ = true
  · rw [if_pos hlocal, if_pos hlocal]
  · rw [if_neg hlocal, if_neg hlocal]

/-- A relative path is loaded from the search paths, else from the working directory. -/
theorem load_of_relative (hpath : Reference.classify reference = .path)
    (hrel : Path.isAbsolute ⟨reference⟩ = false) :
    s.load store reference =
      match s.search store.toFileTree reference with
      | .ok text => .ok text
      | .error _ => localFile store.toFileTree reference := by
  rw [load, hpath]
  simp only [loadPath, hrel]
  rfl

theorem script_ne_missing (t : FileTree) (p : Path) (reference : String) :
    t.script p ≠ .error (missing reference) := by
  intro h
  cases hread : t.readText p with
  | ok text =>
    rw [FileTree.script_of_ok hread] at h
    cases h
  | error e =>
    rw [FileTree.script_of_error hread] at h
    cases h

theorem localFile_eq_missing_iff :
    localFile t reference = .error (missing reference) ↔ t.isFile ⟨reference⟩ = false := by
  unfold localFile
  split
  · next hlocal => simp [hlocal, script_ne_missing]
  · next hlocal => simpa using hlocal

/-- The working directory tells of a file that is no text only when it is its own. -/
theorem localFile_eq_unreadable_iff (hfile : t.isFile p = true)
    (hbad : t.readText p = .error .notText) :
    localFile t reference = .error (unreadable p .notText) ↔ p = ⟨reference⟩ := by
  constructor
  · intro heq
    unfold localFile at heq
    split at heq
    · cases hread : t.readText ⟨reference⟩ with
      | ok text =>
        rw [FileTree.script_of_ok hread] at heq
        cases heq
      | error e =>
        rw [FileTree.script_of_error hread] at heq
        exact (eq_of_unreadable (Except.error.inj heq)).symm
    · cases heq
  · rintro rfl
    rw [localFile, if_pos hfile, FileTree.script_of_error hbad]

section

variable (hpath : Reference.classify reference = .path)
  (hrel : Path.isAbsolute ⟨reference⟩ = false)

include hpath hrel

/-- Without a file on the search paths the working directory decides. -/
theorem load_of_none (h : s.searchPath? store.toFileTree reference = none) :
    s.load store reference = localFile store.toFileTree reference := by
  rw [load_of_relative hpath hrel, search, h]

/-- A file on the search paths that is text is loaded. -/
theorem load_of_text {text : String} (h : s.searchPath? store.toFileTree reference = some p)
    (htext : store.readText p = .ok text) : s.load store reference = .ok text := by
  rw [load_of_relative hpath hrel, search, h]
  simp only [FileTree.script_of_ok htext]

/-- A file on the search paths that is no text is passed over. -/
theorem load_of_notText (h : s.searchPath? store.toFileTree reference = some p)
    (hbad : store.readText p = .error .notText) :
    s.load store reference = localFile store.toFileTree reference := by
  rw [load_of_relative hpath hrel, search, h]
  simp only [FileTree.script_of_error hbad]

/-- Loading a relative path. The first place with a file decides exactly when that is text, if it
is on the search paths, or is the same path as in the working directory. A file on the search
paths that is no text gives way to the working directory, and then to a failure that does not tell
of it. So nothing is found exactly when there is no file in the working directory, and none on the
search paths or one that is no text. -/
theorem load_eq_firstFile_iff :
    (s.load store reference = s.firstFile store.toFileTree reference ↔
      ∀ p, s.searchPath? store.toFileTree reference = some p →
        store.readText p = .error .notText → p = ⟨reference⟩) ∧
    (∀ p, s.searchPath? store.toFileTree reference = some p →
      store.readText p = .error .notText →
      s.load store reference = localFile store.toFileTree reference) ∧
    (s.load store reference = .error (missing reference) ↔
      store.isFile ⟨reference⟩ = false ∧
      ∀ p, s.searchPath? store.toFileTree reference = some p →
        store.readText p = .error .notText) := by
  cases hfound : s.searchPath? store.toFileTree reference with
  | none =>
    rw [load_of_none hpath hrel hfound, firstFile_of_none hfound, localFile_eq_missing_iff]
    simp
  | some p =>
    have hfile : store.isFile p = true := isFile_of_searchPath? hfound
    rw [firstFile_of_some hfound]
    rcases FileTree.readText_of_isFile hfile with ⟨text, htext⟩ | hbad
    · rw [load_of_text hpath hrel hfound htext, FileTree.script_of_ok htext]
      simp [htext]
    · rw [load_of_notText hpath hrel hfound hbad, FileTree.script_of_error hbad,
        localFile_eq_missing_iff, localFile_eq_unreadable_iff hfile hbad]
      simp [hbad]

end

/-- A URL of another machine gives the text that is sent for it, if settings allow to ask. -/
theorem load_eq_ok_iff_of_remote {text : String}
    (hremote : Reference.classify reference = .remote) :
    s.load store reference = .ok text ↔
      s.allowRemote = true ∧ store.fetch reference = .ok text := by
  rw [load, hremote]
  simp only [loadRemote]
  constructor
  · intro h
    split at h
    · next hallow =>
      refine ⟨hallow, ?_⟩
      cases hfetch : store.fetch reference with
      | ok sent =>
        rw [hfetch] at h
        cases h
        rfl
      | error e =>
        rw [hfetch] at h
        cases e <;> cases h
    · cases h
  · rintro ⟨hallow, hfetch⟩
    rw [if_pos hallow, hfetch]

/-- What other machines would send does not matter to a script that is none of theirs, nor if
settings do not allow to ask. -/
theorem loadScript_offline {a : Artifact} {fallback : Option Coordinates}
    (h : s.allowRemote = true → Reference.classify (Text.trim a.reference) ≠ .remote) :
    s.loadScript store a fallback = s.loadScript store.toFileTree.offline a fallback := by
  have hload : s.load store (Text.trim a.reference) =
      s.load store.toFileTree.offline (Text.trim a.reference) := by
    unfold load
    split
    case h_5 hremote =>
      have hrefused : ¬ s.allowRemote = true := fun hallow => h hallow hremote
      rw [loadRemote, loadRemote, if_neg hrefused, if_neg hrefused]
    all_goals rfl
  rw [loadScript, loadScript, hload, FileTree.toFileTree_offline]

def twoPaths : ArtifactSettings := ⟨⟨"repo"⟩, "expanded", [⟨"etc"⟩, ⟨"lib"⟩], false⟩

/-- A tree with a file that is no text below the second search path. -/
def spoiledTree : FileTree :=
  (FileTree.emptyAt []).put ⟨"lib/install.sh"⟩ (.file ⟨#[0xff]⟩)

/-- A file that is text below the first search path decides. -/
theorem load_twoPaths :
    twoPaths.load (spoiledTree.put ⟨"etc/install.sh"⟩ (.file "install".toUTF8)) "install.sh" =
      twoPaths.firstFile (spoiledTree.put ⟨"etc/install.sh"⟩ (.file "install".toUTF8))
        "install.sh" := by
  have hfound : twoPaths.searchPath?
      (spoiledTree.put ⟨"etc/install.sh"⟩ (.file "install".toUTF8)) "install.sh" =
        some ⟨"etc/install.sh"⟩ := by
    decide +kernel
  have hread : ((spoiledTree.put ⟨"etc/install.sh"⟩ (.file "install".toUTF8)).readText
      ⟨"etc/install.sh"⟩).isOk = true := by
    decide +kernel
  refine (load_eq_firstFile_iff (by decide +kernel) (by decide +kernel)).1.2 fun p hp hbad => ?_
  cases hfound.symm.trans hp
  have hspoiled : (spoiledTree.put ⟨"etc/install.sh"⟩ (.file "install".toUTF8)).readText
      ⟨"etc/install.sh"⟩ = .error .notText := hbad
  rw [hspoiled] at hread
  cases hread

/-- A file below a search path that is no text is replaced by one in the working directory, and
without that it is said not to be there. -/
theorem not_firstFile_spoiled :
    Reference.classify "install.sh" = .path ∧ Path.isAbsolute ⟨"install.sh"⟩ = false ∧
    (twoPaths.searchOrder "install.sh").find? spoiledTree.isFile = some ⟨"lib/install.sh"⟩ ∧
    twoPaths.firstFile spoiledTree "install.sh" =
      .error (unreadable ⟨"lib/install.sh"⟩ .notText) ∧
    twoPaths.load spoiledTree "install.sh" = .error (missing "install.sh") ∧
    (twoPaths.load (spoiledTree.put ⟨"install.sh"⟩ (.file "local".toUTF8))
      "install.sh").toOption = some "local" := by
  decide +kernel

end ArtifactSettings

end DeployPlan
