import DeployPlan.Files.Path
import DeployPlan.Log

/-!
# Settings

What a compilation is told besides its documents: where archives and scripts are found, what stands
in generated commands, and what the log keeps.
-/
namespace DeployPlan

structure ArtifactSettings where
  /-- The root of the archives, one directory per name and version. -/
  repository : Path
  /-- The directory of an archive that holds its contents. -/
  expandedFolder : String
  searchPaths : List Path
  allowRemote : Bool
deriving DecidableEq, Repr

structure LifecycleSettings where
  noopCommand : String
  /-- Where files are installed on the target. -/
  resourcesRoot : String
  tempRoot : String
deriving DecidableEq, Repr

structure LogSettings where
  level : Level
  echo : Bool
deriving DecidableEq, Repr

structure Settings where
  artifacts : ArtifactSettings
  lifecycle : LifecycleSettings
  logging : LogSettings
deriving DecidableEq, Repr

structure Environment where
  archiveRoot : Option String
  home : Option String
deriving DecidableEq, Repr

/-- Where archives are unless settings say so: at the root that the environment names, else below
the home directory. -/
def Environment.repository (e : Environment) : Path :=
  match e.archiveRoot with
  | some root => if root = "" then below e.home else ⟨root⟩
  | none => below e.home
where
  /-- The archives below a home directory that may be unknown. -/
  below : Option String → Path
    | some home => (Path.mk home).join ⟨".tosca"⟩ |>.join ⟨"archives"⟩
    | none => (Path.mk ".tosca").join ⟨"archives"⟩

namespace LifecycleSettings

def initial : LifecycleSettings := ⟨"true", "~/tosca-resources", "/tmp"⟩

end LifecycleSettings

namespace LogSettings

def initial : LogSettings := ⟨.info, false⟩

def start (s : LogSettings) : Log := Log.start s.level s.echo

end LogSettings

namespace Settings

/-- The settings in an environment unless told otherwise. -/
def initial (e : Environment) : Settings where
  artifacts := ⟨e.repository, "expanded", [], true⟩
  lifecycle := .initial
  logging := .initial

/-- A path below `base`, unless it is absolute. -/
def anchored (base p : Path) : Path := if p.isAbsolute then p else base.join p

def anchor (s : Settings) (base : Path) : Settings :=
  { s with artifacts := { s.artifacts with
      repository := anchored base s.artifacts.repository
      searchPaths := s.artifacts.searchPaths.map (anchored base) } }

end Settings

end DeployPlan
