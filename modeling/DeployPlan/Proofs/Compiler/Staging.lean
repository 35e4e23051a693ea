import DeployPlan.Proofs.Build.Staging
import DeployPlan.Proofs.Compiler.Planned

/-!
# Files that a compiled plan stages

The environment of a scripted node stages the file artifacts of its type in order. All files of an
artifact that is found are staged once, and they are kept apart exactly when they are called
differently, wherever they are below the directory of the artifact.
-/
namespace DeployPlan

namespace Compiler

variable {s : Settings} {t : Topology} {env : Surroundings} {envs : List Surroundings} {p : Plan}

/-- The environment of every scripted node of a plan that a compiler answers is that in which the
artifacts of its type are staged, in the surroundings of one call. -/
theorem runtime_of_compile (h : (((start t s).after envs).compile env).1 = .ok p) :
    ∃ env' ∈ envs ++ [env], ∀ q ∈ Tree.subtreesOf p.roots, q.label.scripted = true →
      ∃ n profile, t.node? q.label.id = some n ∧
        env'.types n.nodeType t.dependencies = .ok profile ∧
        q.label.runtime = (Job.of s env' t).staging profile.artifacts := by
  obtain ⟨env', henv', htypes, pass, pass', hplan⟩ := plan_of_compile h
  refine ⟨env', henv', fun q hq hscripted => ?_⟩
  obtain ⟨planned, pass, pass', hrun, hlabel⟩ :=
    Build.planned_of_plan hplan q.label (List.mem_map_of_mem hq)
  have hruntime := congrArg NodePlan.runtime hlabel
  have hkept := congrArg NodePlan.scripted hlabel
  change q.label.runtime = planned.runtime at hruntime
  change q.label.scripted = planned.scripted at hkept
  obtain ⟨n, hn, hstaging⟩ := Build.runtime_of_nodePlan hrun (hkept ▸ hscripted)
  have hused : n.nodeType ∈ Scene.usedTypes t :=
    List.mem_flatMap.2 ⟨n, Topology.mem_of_node? hn, List.mem_cons_self⟩
  obtain ⟨profile, hprofile⟩ := htypes _ hused
  rw [Job.profile_of hused hprofile] at hstaging
  exact ⟨n, profile, hn, hprofile, hruntime.trans hstaging⟩

/-- The environment of every scripted node of a plan that a compiler answers is that in which the
artifacts of its type are staged. If a file artifact with a name is found, each file below its
directory is staged, and none twice. The files are kept apart, so that none of them takes the place
of another one and all are copied to where they are moved from, exactly when no two are called the
same and no later artifact has one of them copied elsewhere. A file of another artifact takes the
place of one of them exactly when it is called the same and is staged under the same root. -/
theorem staging_of_compile (h : (((start t s).after envs).compile env).1 = .ok p)
    (hfiles : ∀ env' ∈ envs ++ [env], env'.files.root.isProper = true) :
    ∃ env' ∈ envs ++ [env], ∀ q ∈ Tree.subtreesOf p.roots, q.label.scripted = true →
      ∃ n profile, t.node? q.label.id = some n ∧
        env'.types n.nodeType t.dependencies = .ok profile ∧
        q.label.runtime = (Job.of s env' t).staging profile.artifacts ∧
        ∀ before artifact after name resources, profile.artifacts = before ++ artifact :: after →
          artifact.2.stagingName? = some name →
          (Job.of s env' t).resources? artifact.1 artifact.2 = some resources →
          (Job.of s env' t).Stages q.label.runtime artifact name (env'.files.filesBelow resources)
            after := by
  obtain ⟨env', henv', hruntimes⟩ := runtime_of_compile h
  refine ⟨env', henv', fun q hq hscripted => ?_⟩
  obtain ⟨n, profile, hn, hprofile, hruntime⟩ := hruntimes q hq hscripted
  refine ⟨n, profile, hn, hprofile, hruntime, ?_⟩
  intro before artifact after name resources hartifacts hname hresources
  rw [hruntime, hartifacts]
  exact Job.stages_staging (hfiles env' henv') hname hresources

def dataDirectory (eu us : String) : FileNode :=
  .directory [("eu", .directory [(eu, .file "eu".toUTF8)]),
    ("us", .directory [(us, .file "us".toUTF8)])]

def dataTree (eu us : String) : FileTree where
  root := .directory [("repo", .directory [("lib", .directory [("1.0", .directory [("expanded",
    .directory [("data", dataDirectory eu us)])])])])]
  place := []

/-- An application whose type has the directory as an artifact. -/
def dataSite : Topology where
  name := "site"
  nodes := [⟨"web", "App", none, none, ∅, [], [], [], []⟩]
  groups := []
  dependencies := []
  archive := some ⟨"lib", "1.0"⟩

def dataArtifact : String × Artifact :=
  ("data", ⟨none, none, "data", some fileArtifact, some "data"⟩)

/-- Surroundings in which every type has the artifact. -/
def dataSurroundings (eu us : String) : Surroundings where
  types := fun name _ => .ok { TypeProfile.bare name with artifacts := [dataArtifact] }
  registry := .empty
  files := dataTree eu us

def dataSettings : Settings := .initial ⟨some "repo", none⟩

def dataJob (eu us : String) : Job := Job.of dataSettings (dataSurroundings eu us) dataSite

theorem files_dataDirectory {opens : List String → Bool} (h : opens [] = true)
    (heu : opens ["eu"] = true) (hus : opens ["us"] = true) (eu us : String) :
    (dataDirectory eu us).files opens = [["eu", eu], ["us", us]] := by
  have hone {region : String} (h : opens [region] = true) (name : String) (content : ByteArray) :
      (FileNode.directory [(name, .file content)]).files (fun names => opens (region :: names)) =
        [[name]] :=
    FileNode.files_of_sorted h (List.pairwise_singleton _ _)
  have hsorted : (dataDirectory eu us).files opens = _ := FileNode.files_of_sorted h (by simp)
  rw [hsorted]
  simp only [List.flatMap_cons, hone heu, hone hus]
  rfl

theorem filesBelow_dataTree (eu us : String) :
    (dataTree eu us).filesBelow ⟨"repo/lib/1.0/expanded/data"⟩ =
      [["eu", eu], ["us", us]].map (Path.joinAll ⟨"repo/lib/1.0/expanded/data"⟩) := by
  have hnode : (dataTree eu us).node? ⟨"repo/lib/1.0/expanded/data"⟩ =
      some (dataDirectory eu us) := rfl
  rw [FileTree.filesBelow_eq hnode, files_dataDirectory] <;> decide +kernel

theorem resources_dataArtifact (eu us : String) :
    (dataJob eu us).resources? dataArtifact.1 dataArtifact.2 =
      some ⟨"repo/lib/1.0/expanded/data"⟩ := by
  have harchive : dataArtifact.2.archive?.or (dataJob eu us).scene.topology.archive =
      some ⟨"lib", "1.0"⟩ := rfl
  have hroot : dataSettings.artifacts.archiveRoot ⟨"lib", "1.0"⟩ = ⟨"repo/lib/1.0"⟩ := by
    decide +kernel
  have hpath : (dataSettings.artifacts.contents ⟨"lib", "1.0"⟩).join ⟨"data"⟩ =
      ⟨"repo/lib/1.0/expanded/data"⟩ := by
    decide +kernel
  have hkept : (dataTree eu us).isDirectory ⟨"repo/lib/1.0"⟩ = true := rfl
  have hdirectory : (dataTree eu us).isDirectory ⟨"repo/lib/1.0/expanded/data"⟩ = true := rfl
  have hexpanded : (dataJob eu us).settings.artifacts.expandedPath?
      (dataJob eu us).files.toFileTree ⟨"lib", "1.0"⟩ dataArtifact.1 =
        some ⟨"repo/lib/1.0/expanded/data"⟩ := by
    change dataSettings.artifacts.expandedPath? (dataTree eu us) ⟨"lib", "1.0"⟩ "data" = _
    rw [ArtifactSettings.expandedPath?, hroot, if_pos hkept, hpath]
  rw [Job.resources?, harchive, Option.bind_eq_bind, Option.bind_some, hexpanded,
    Option.bind_eq_bind, Option.bind_some]
  exact if_pos hdirectory

/-- The files of the artifact are staged by their last names. -/
theorem staged_dataArtifact (eu us : String) : (dataJob eu us).staged dataArtifact =
    ([["eu", eu], ["us", us]].map (Path.joinAll ⟨"repo/lib/1.0/expanded/data"⟩)).filterMap
      (StagedFile.under? "/tmp/data" "~/tosca-resources/data") := by
  have htemporary : (dataJob eu us).temporaryRoot "data" = "/tmp/data" :=
    (by decide +kernel : remotePath "/tmp" "data" = "/tmp/data")
  have hlasting : (dataJob eu us).lastingRoot "data" = "~/tosca-resources/data" :=
    (by decide +kernel : remotePath "~/tosca-resources" "data" = "~/tosca-resources/data")
  rw [Job.staged_eq rfl (resources_dataArtifact eu us), htemporary, hlasting]
  exact congrArg (List.filterMap _) (filesBelow_dataTree eu us)

/-- A scripted node of the application stages the artifact and nothing else. -/
theorem runtime_dataSite {eu us : String}
    (h : ((start dataSite dataSettings).compile (dataSurroundings eu us)).1 = .ok p)
    {q : PlanTree} (hq : q ∈ Tree.subtreesOf p.roots) (hscripted : q.label.scripted = true) :
    q.label.runtime = (dataJob eu us).staging [dataArtifact] := by
  change (((start dataSite dataSettings).after []).compile (dataSurroundings eu us)).1 = .ok p at h
  obtain ⟨env', henv', hruntimes⟩ := runtime_of_compile h
  obtain rfl := List.mem_singleton.1 henv'
  obtain ⟨n, profile, -, hprofile, hruntime⟩ := hruntimes q hq hscripted
  cases hprofile
  exact hruntime

/-- A plan of the application has a scripted node if the kinds of its nodes say so. -/
theorem exists_scripted {eu us : String}
    (h : ((start dataSite dataSettings).compile (dataSurroundings eu us)).1.toOption.map (fun p =>
      (Tree.subtreesOf p.roots).map fun q => q.label.scripted) = some [true]) :
    ∃ p, ((start dataSite dataSettings).compile (dataSurroundings eu us)).1 = .ok p ∧
      ∃ q ∈ Tree.subtreesOf p.roots, q.label.scripted = true := by
  obtain ⟨p, hp, hscripted⟩ := Option.map_eq_some_iff.1 h
  refine ⟨p, eq_ok_of_toOption hp, List.mem_map.1 ?_⟩
  rw [hscripted]
  exact List.mem_singleton_self true

/-- Two files that are called differently are kept apart. -/
theorem staging_dataSite : (dataTree "eu.conf" "us.conf").root.isProper = true ∧
    ∃ p, ((start dataSite dataSettings).compile (dataSurroundings "eu.conf" "us.conf")).1 = .ok p ∧
      ∃ q ∈ Tree.subtreesOf p.roots, q.label.scripted = true ∧ q.label.runtime.Separates
        [⟨"repo/lib/1.0/expanded/data/eu/eu.conf", "/tmp/data/eu.conf",
            "~/tosca-resources/data/eu.conf"⟩,
          ⟨"repo/lib/1.0/expanded/data/us/us.conf", "/tmp/data/us.conf",
            "~/tosca-resources/data/us.conf"⟩] := by
  have hproper : (dataTree "eu.conf" "us.conf").root.isProper = true := by decide +kernel
  obtain ⟨p, hp, q, hq, hscripted⟩ := exists_scripted
    (by decide +kernel : ((start dataSite dataSettings).compile
      (dataSurroundings "eu.conf" "us.conf")).1.toOption.map _ = some [true])
  refine ⟨hproper, p, hp, q, hq, hscripted, ?_⟩
  change (((start dataSite dataSettings).after []).compile _).1 = .ok p at hp
  obtain ⟨env', henv', hstaged⟩ := staging_of_compile hp (List.forall_mem_singleton.2 hproper)
  obtain rfl := List.mem_singleton.1 henv'
  obtain ⟨n, profile, -, hprofile, -, hstages⟩ := hstaged q hq hscripted
  cases hprofile
  have hdata : (dataJob "eu.conf" "us.conf").Stages q.label.runtime dataArtifact "data"
      ((dataTree "eu.conf" "us.conf").filesBelow ⟨"repo/lib/1.0/expanded/data"⟩) [] :=
    hstages [] dataArtifact [] "data" _ rfl rfl (resources_dataArtifact _ _)
  have hstaged : (dataJob "eu.conf" "us.conf").staged dataArtifact =
      [⟨"repo/lib/1.0/expanded/data/eu/eu.conf", "/tmp/data/eu.conf",
          "~/tosca-resources/data/eu.conf"⟩,
        ⟨"repo/lib/1.0/expanded/data/us/us.conf", "/tmp/data/us.conf",
          "~/tosca-resources/data/us.conf"⟩] :=
    (staged_dataArtifact _ _).trans (by decide +kernel)
  rw [← hstaged]
  refine hdata.separates_iff.2 ⟨?_, fun _ _ _ hlater => nomatch hlater⟩
  rw [filesBelow_dataTree]
  decide +kernel

/-- Two files that are called the same are copied to one place, from where one move after the other
takes what is there. -/
theorem overwrites_dataSite : ∃ p,
    ((start dataSite dataSettings).compile (dataSurroundings "app.conf" "app.conf")).1 = .ok p ∧
      ∃ q ∈ Tree.subtreesOf p.roots, q.label.scripted = true ∧
        q.label.runtime.preInstallFiles["repo/lib/1.0/expanded/data/eu/app.conf"]? =
          some "/tmp/data/app.conf" ∧
        q.label.runtime.preInstallFiles["repo/lib/1.0/expanded/data/us/app.conf"]? =
          some "/tmp/data/app.conf" ∧
        q.label.runtime.preInstallCommands =
          ["mkdir -p ~/tosca-resources/data", "mkdir -p /tmp/data",
            "mv /tmp/data/app.conf ~/tosca-resources/data/app.conf",
            "mv /tmp/data/app.conf ~/tosca-resources/data/app.conf"] := by
  obtain ⟨p, hp, q, hq, hscripted⟩ := exists_scripted
    (by decide +kernel : ((start dataSite dataSettings).compile
      (dataSurroundings "app.conf" "app.conf")).1.toOption.map _ = some [true])
  have hstaged : (dataJob "app.conf" "app.conf").staged dataArtifact =
      [⟨"repo/lib/1.0/expanded/data/eu/app.conf", "/tmp/data/app.conf",
          "~/tosca-resources/data/app.conf"⟩,
        ⟨"repo/lib/1.0/expanded/data/us/app.conf", "/tmp/data/app.conf",
          "~/tosca-resources/data/app.conf"⟩] :=
    (staged_dataArtifact _ _).trans (by decide +kernel)
  have hall : [dataArtifact].flatMap (dataJob "app.conf" "app.conf").staged =
      (dataJob "app.conf" "app.conf").staged dataArtifact := List.flatMap_singleton _ _
  rw [hstaged] at hall
  refine ⟨p, hp, q, hq, hscripted, ?_⟩
  rw [runtime_dataSite hp hq hscripted]
  refine ⟨?_, ?_, ?_⟩
  · rw [Job.preInstallFiles_staging, hall]
    rfl
  · rw [Job.preInstallFiles_staging, hall]
    rfl
  · have hcommands : ((dataJob "app.conf" "app.conf").staging [dataArtifact]).preInstallCommands =
        (dataJob "app.conf" "app.conf").stagingCommands dataArtifact :=
      (List.nil_append _).trans (List.flatMap_singleton _ _)
    rw [hcommands, Job.stagingCommands, hstaged]
    decide +kernel

end Compiler

end DeployPlan
