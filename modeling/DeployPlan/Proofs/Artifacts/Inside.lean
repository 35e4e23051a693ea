import DeployPlan.Artifacts
import DeployPlan.Proofs.Files.Place

/-!
# Paths into archives

What is asked of an archive is looked for below the directory of its contents. By its text a
relative path stays there exactly when it regains the names that it takes back, and an absolute path
is not looked for in the archive at all. Only a bare path can be absolute: after the scheme of the
search paths no slash is left at the start.
-/
namespace DeployPlan

namespace Reference

variable {reference relative : String}

/-- After the scheme of the search paths there is a relative path. -/
theorem isAbsolute_classpathPath (reference : String) :
    Path.isAbsolute ⟨classpathPath reference⟩ = false := by
  rw [Path.isAbsolute, classpathPath, Text.dropLeading, String.toList_ofList]
  generalize String.toList _ = cs
  induction cs with
  | nil => rfl
  | cons c cs ih =>
    rw [List.dropWhile_cons]
    split
    · exact ih
    · next hc => simpa using hc

/-- An absolute path that is asked of an archive is the whole of a bare reference. -/
theorem archivePath?_of_isAbsolute (h : archivePath? reference = some relative)
    (habs : Path.isAbsolute ⟨relative⟩ = true) :
    classify reference = .path ∧ reference = relative := by
  unfold archivePath? at h
  split at h
  · next hpath => exact ⟨hpath, Option.some.inj h⟩
  · cases h
    rw [isAbsolute_classpathPath] at habs
    cases habs
  · cases h

end Reference

namespace ArtifactSettings

variable {s : ArtifactSettings} {t : FileTree} {c : Coordinates} {relative : String} {p : Path}

/-- The contents of an archive are below the repository, its name and its version. -/
theorem text_contents (hname : Path.isName c.name = true) (hversion : Path.isName c.version = true)
    (hfolder : Path.isAbsolute ⟨s.expandedFolder⟩ = false) :
    (s.contents c).text = s.repository.stem ++ c.name ++ "/" ++ c.version ++ "/" ++
      s.expandedFolder := by
  rw [contents, archiveRoot, Path.text_join_of_relative hfolder, Path.stem_join hversion,
    Path.stem_join hname]

theorem eq_of_expandedPath? (h : s.expandedPath? t c relative = some p) :
    p = (s.contents c).join ⟨relative⟩ := by
  unfold expandedPath? at h
  split at h
  · exact (Option.some.inj h).symm
  · cases h

/-- What is asked of an archive that the repository has, by a reference or by the id of an artifact:
a relative path is looked for inside the contents exactly when it regains the names that it takes
back, and so when it names no directory above. An absolute path is looked for where it says, and is
the whole of a bare reference if it comes from a reference. -/
theorem inside_contents_iff (hname : Path.isName c.name = true)
    (hversion : Path.isName c.version = true)
    (hfolder : Path.isAbsolute ⟨s.expandedFolder⟩ = false)
    (hp : s.expandedPath? t c relative = some p) :
    (s.contents c).text = s.repository.stem ++ c.name ++ "/" ++ c.version ++ "/" ++
      s.expandedFolder ∧
    (Path.isAbsolute ⟨relative⟩ = false →
      (p.place.IsIn (s.contents c).place ↔
        (Path.place ⟨relative⟩).Regains (s.contents c).place) ∧
      (".." ∉ Path.names ⟨relative⟩ → p.place.IsIn (s.contents c).place)) ∧
    (Path.isAbsolute ⟨relative⟩ = true → p = ⟨relative⟩ ∧
      ∀ reference, Reference.archivePath? reference = some relative →
        Reference.classify reference = .path ∧ reference = relative) := by
  refine ⟨text_contents hname hversion hfolder, fun hrel => ?_, fun habs => ⟨?_, ?_⟩⟩
  · have hinside : p.place.IsIn (s.contents c).place ↔
        (Path.place ⟨relative⟩).Regains (s.contents c).place := by
      rw [eq_of_expandedPath? hp]
      exact Path.isIn_join_iff hrel
    exact ⟨hinside, fun hnone => hinside.2 (Path.regains_of_not_mem hnone _)⟩
  · rw [eq_of_expandedPath? hp, Path.join_of_isAbsolute habs]
  · intro reference href
    exact Reference.archivePath?_of_isAbsolute href habs

def localSettings : ArtifactSettings := ⟨⟨"repo"⟩, "expanded", [], false⟩

/-- A library with a script in the repository, and a file beside the library. -/
def libraryTree : FileTree :=
  ((FileTree.emptyAt []).put ⟨"repo/lib/1.0/expanded/install.sh"⟩ (.file "install".toUTF8)).put
    ⟨"repo/secret.sh"⟩ (.file "secret".toUTF8)

/-- A path that leaves the contents and comes back to them. -/
theorem inside_contents_install :
    localSettings.expandedPath? libraryTree ⟨"lib", "1.0"⟩ "../expanded/install.sh" =
      some ⟨"repo/lib/1.0/expanded/../expanded/install.sh"⟩ ∧
    (Path.place ⟨"repo/lib/1.0/expanded/../expanded/install.sh"⟩).IsIn
      (localSettings.contents ⟨"lib", "1.0"⟩).place := by
  have hp : localSettings.expandedPath? libraryTree ⟨"lib", "1.0"⟩ "../expanded/install.sh" =
      some ⟨"repo/lib/1.0/expanded/../expanded/install.sh"⟩ := by
    decide +kernel
  have hinside := inside_contents_iff (by decide +kernel) (by decide +kernel) (by decide +kernel) hp
  refine ⟨hp, (hinside.2.1 (by decide +kernel)).1.2 ?_⟩
  decide +kernel

/-- The script of an artifact of the library is the file beside it, when the reference takes back
more names than the contents have below the repository. An absolute path leads where it says. -/
theorem not_inside_contents_secret :
    Path.isName "lib" = true ∧ Path.isName "1.0" = true ∧
    localSettings.expandedFolder ≠ "" ∧
    Path.isAbsolute ⟨localSettings.expandedFolder⟩ = false ∧
    Reference.archivePath? "../../../secret.sh" = some "../../../secret.sh" ∧
    localSettings.expandedPath? libraryTree ⟨"lib", "1.0"⟩ "../../../secret.sh" =
      some ⟨"repo/lib/1.0/expanded/../../../secret.sh"⟩ ∧
    ¬ (Path.place ⟨"repo/lib/1.0/expanded/../../../secret.sh"⟩).IsIn
      (localSettings.contents ⟨"lib", "1.0"⟩).place ∧
    (localSettings.loadScript libraryTree
      ⟨some "lib", some "1.0", "../../../secret.sh", none, none⟩ none).toOption = some "secret" ∧
    Reference.archivePath? "/etc/passwd" = some "/etc/passwd" ∧
    localSettings.expandedPath? libraryTree ⟨"lib", "1.0"⟩ "/etc/passwd" = some ⟨"/etc/passwd"⟩ ∧
    ¬ (Path.place ⟨"/etc/passwd"⟩).IsIn (localSettings.contents ⟨"lib", "1.0"⟩).place := by
  decide +kernel

end ArtifactSettings

end DeployPlan
