import DeployPlan.Proofs.Build.Kinds
import DeployPlan.Proofs.Files.Distinct

/-!
# Staged files

The file artifacts of a type are staged one after another. A file is staged by the last name of its
path, wherever it is below the directory of its artifact, so two files of an artifact go to the same
place exactly when they are called the same. A copy is kept under the file it is made of, so of two
artifacts that both have a file the later one says where it goes.
-/
namespace DeployPlan

/-- A file of an artifact, where it is copied to, and where it is moved to. -/
structure StagedFile where
  source : String
  temporary : String
  lasting : String
deriving DecidableEq, Repr

namespace StagedFile

def move (f : StagedFile) : String := s!"mv {f.temporary} {f.lasting}"

def copy (f : StagedFile) : String × String := (f.source, f.temporary)

def name? (f : StagedFile) : Option String := Path.fileName? ⟨f.source⟩

/-- What is staged under two roots from a path, if that calls a file something. -/
def under? (temporary lasting : String) (file : Path) : Option StagedFile :=
  file.fileName?.map fun name =>
    ⟨file.text, remotePath temporary name, remotePath lasting name⟩

/-- The last one of some staged files that is made of a file. -/
def lastFrom? (source : String) (fs : List StagedFile) : Option StagedFile :=
  (fs.filter (·.source = source)).getLast?

variable {temporary lasting source : String} {files : List Path} {fs : List StagedFile}
  {f : StagedFile}

/-- Where a name is below a root tells the name and, up to slashes at its end, the root. -/
theorem remotePath_eq_iff {root root' name name' : String} (hname : Path.isName name = true)
    (hname' : Path.isName name' = true) : remotePath root name = remotePath root' name' ↔
      Text.dropTrailing '/' root = Text.dropTrailing '/' root' ∧ name = name' := by
  have hkept {name : String} (hname : Path.isName name = true) :
      Text.dropLeading '/' name = name := by
    have hslash := (Path.isName_iff.1 hname).2.2.2
    have hdrop : name.toList.dropWhile (· == '/') = name.toList := by
      cases hchars : name.toList with
      | nil => rfl
      | cons c cs =>
        rw [hchars, List.mem_cons, not_or] at hslash
        exact List.dropWhile_cons_of_neg (by simpa using Ne.symm hslash.1)
    rw [Text.dropLeading, hdrop, String.ofList_toList]
  -- What stands before the first slash from the end is the name.
  have hlast {name : String} (hname : Path.isName name = true) (root : String) :
      (root ++ "/" ++ name).toList.reverse.takeWhile (· != '/') = name.toList.reverse := by
    have hchars : (root ++ "/" ++ name).toList.reverse =
        name.toList.reverse ++ '/' :: root.toList.reverse := by simp
    have hslash : ∀ c ∈ name.toList.reverse, (c != '/') = true := by
      intro c hc
      rw [bne_iff_ne]
      rintro rfl
      exact (Path.isName_iff.1 hname).2.2.2 (List.mem_reverse.1 hc)
    rw [hchars, List.takeWhile_append_of_pos hslash, List.takeWhile_cons_of_neg (by decide),
      List.append_nil]
  rw [remotePath, remotePath, hkept hname, hkept hname']
  constructor
  · intro h
    have hnames := congrArg (fun t : String => t.toList.reverse.takeWhile (· != '/')) h
    simp only [hlast hname, hlast hname', List.reverse_inj, String.toList_inj] at hnames
    subst hnames
    exact ⟨(String.append_left_inj _).1 ((String.append_left_inj _).1 h), rfl⟩
  · rintro ⟨hroot, rfl⟩
    rw [hroot]

/-- Where files are staged is told by what they are called. -/
theorem nodup_remotePath_iff (root : String) (files : List Path) :
    ((files.filterMap Path.fileName?).map (remotePath root)).Nodup ↔
      (files.filterMap Path.fileName?).Nodup := by
  refine ⟨List.Nodup.of_map _, fun h => h.map_on fun name hname other hother heq => ?_⟩
  obtain ⟨file, -, hfile⟩ := List.mem_filterMap.1 hname
  obtain ⟨file', -, hfile'⟩ := List.mem_filterMap.1 hother
  exact ((remotePath_eq_iff (Path.isName_of_fileName? hfile)
    (Path.isName_of_fileName? hfile')).1 heq).2

theorem under?_eq_some {file : Path} (h : under? temporary lasting file = some f) : ∃ name,
    Path.isName name = true ∧ f.name? = some name ∧ f.temporary = remotePath temporary name ∧
      f.lasting = remotePath lasting name := by
  obtain ⟨name, hname, rfl⟩ := Option.map_eq_some_iff.1 h
  exact ⟨name, Path.isName_of_fileName? hname, hname, rfl, rfl⟩

/-- Where all files go below one root is told by what they are called. -/
theorem map_under? {field : StagedFile → String} {root : String} (h : ∀ source name,
    field ⟨source, remotePath temporary name, remotePath lasting name⟩ = remotePath root name) :
    (files.filterMap (under? temporary lasting)).map field =
      (files.filterMap Path.fileName?).map (remotePath root) := by
  rw [List.map_filterMap, List.map_filterMap]
  refine List.filterMap_congr fun file _ => ?_
  rw [under?, Option.map_map]
  exact congrArg (file.fileName?.map ·) (funext fun name => h file.text name)

theorem map_temporary_under? : (files.filterMap (under? temporary lasting)).map
    StagedFile.temporary = (files.filterMap Path.fileName?).map (remotePath temporary) :=
  map_under? fun _ _ => rfl

theorem map_lasting_under? : (files.filterMap (under? temporary lasting)).map
    StagedFile.lasting = (files.filterMap Path.fileName?).map (remotePath lasting) :=
  map_under? fun _ _ => rfl

theorem map_source_under? (h : ∀ file ∈ files, ∃ name, file.fileName? = some name) :
    (files.filterMap (under? temporary lasting)).map StagedFile.source = files.map Path.text := by
  rw [List.map_filterMap, ← List.filterMap_eq_map]
  refine List.filterMap_congr fun file hfile => ?_
  obtain ⟨name, hname⟩ := h file hfile
  rw [under?, hname]
  rfl

theorem valuesUnder_copy (source : String) (fs : List StagedFile) :
    Entries.valuesUnder source (fs.map copy) =
      (fs.filter (·.source = source)).map StagedFile.temporary := by
  rw [Entries.valuesUnder, List.filter_map, List.map_map]
  rfl

theorem lastFrom?_append (source : String) (fs gs : List StagedFile) :
    lastFrom? source (fs ++ gs) = (lastFrom? source gs).or (lastFrom? source fs) := by
  rw [lastFrom?, List.filter_append, List.getLast?_append, lastFrom?, lastFrom?]

/-- Of files that are distinct each is the only one that is made of it. -/
theorem lastFrom?_of_mem (h : (fs.map StagedFile.source).Nodup) (hf : f ∈ fs) :
    lastFrom? f.source fs = some f := by
  obtain ⟨front, back, rfl⟩ := List.append_of_mem hf
  rw [List.map_append, List.nodup_append, List.map_cons, List.nodup_cons] at h
  have hback : back.filter (·.source = f.source) = [] := by
    refine List.filter_eq_nil_iff.2 fun g hg => ?_
    rw [decide_eq_true_eq]
    exact fun heq => h.2.1.1 (heq ▸ List.mem_map_of_mem hg)
  rw [lastFrom?_append, lastFrom?, List.filter_cons_of_pos (by simp), hback,
    List.getLast?_singleton, Option.some_or]

end StagedFile

namespace RuntimeEnvironment

/-- An environment with commands, copies and named roots added. -/
def add (e : RuntimeEnvironment) (commands : List String) (copies roots : List (String × String)) :
    RuntimeEnvironment where
  preInstallCommands := e.preInstallCommands ++ commands
  preInstallFiles := copies.foldl (fun m c => m.insert c.1 c.2) e.preInstallFiles
  shellEnv := roots.foldl (fun m r => m.insert r.1 r.2) e.shellEnv

variable {e : RuntimeEnvironment} {commands commands' : List String}
  {copies copies' roots roots' : List (String × String)}

theorem add_add : (e.add commands copies roots).add commands' copies' roots' =
    e.add (commands ++ commands') (copies ++ copies') (roots ++ roots') := by
  simp only [add, List.append_assoc, List.foldl_append]

@[simp] theorem add_nil : e.add [] [] [] = e := by
  simp only [add, List.append_nil, List.foldl_nil]

theorem addRoots_eq (e : RuntimeEnvironment) (name lasting temporary : String) :
    e.addRoots name lasting temporary =
      e.add [s!"mkdir -p {lasting}", s!"mkdir -p {temporary}"] [] [(name, lasting)] := rfl

theorem addFile_eq (e : RuntimeEnvironment) (lasting temporary : String) (file : Path) :
    e.addFile lasting temporary file =
      e.add ((StagedFile.under? temporary lasting file).toList.map StagedFile.move)
        ((StagedFile.under? temporary lasting file).toList.map StagedFile.copy) [] := by
  rw [addFile, StagedFile.under?]
  cases file.fileName? with
  | none => exact add_nil.symm
  | some name => rfl

theorem foldl_addFile (lasting temporary : String) (files : List Path) :
    files.foldl (fun e file => e.addFile lasting temporary file) e =
      e.add ((files.filterMap (StagedFile.under? temporary lasting)).map StagedFile.move)
        ((files.filterMap (StagedFile.under? temporary lasting)).map StagedFile.copy) [] := by
  induction files generalizing e with
  | nil => exact add_nil.symm
  | cons file files ih =>
    rw [List.foldl_cons, ih, addFile_eq, add_add, List.filterMap_cons, List.append_nil]
    cases StagedFile.under? temporary lasting file <;> rfl

/-- An environment keeps some files apart: each is copied to where it is moved from, and no two are
copied or moved to the same place. -/
structure Separates (e : RuntimeEnvironment) (fs : List StagedFile) : Prop where
  copied : ∀ f ∈ fs, e.preInstallFiles[f.source]? = some f.temporary
  temporaries : (fs.map (·.temporary)).Nodup
  lastings : (fs.map (·.lasting)).Nodup

end RuntimeEnvironment

/-- The name under which an artifact is staged, if it is. -/
def Artifact.stagingName? (a : Artifact) : Option String :=
  if a.artifactType = some fileArtifact then a.artifactName.filter fun name => !Text.isBlank name
  else none

namespace Job

variable {job : Job}

/-- The directory that the files of an artifact are moved to. -/
def lastingRoot (job : Job) (name : String) : String :=
  remotePath job.settings.lifecycle.resourcesRoot name

/-- The directory that the files of an artifact are copied to. -/
def temporaryRoot (job : Job) (name : String) : String :=
  remotePath job.settings.lifecycle.tempRoot name

def staged (job : Job) (artifact : String × Artifact) : List StagedFile :=
  match artifact.2.stagingName?, job.resources? artifact.1 artifact.2 with
  | some name, some resources => (job.files.filesBelow resources).filterMap
      (StagedFile.under? (job.temporaryRoot name) (job.lastingRoot name))
  | _, _ => []

def stagingCommands (job : Job) (artifact : String × Artifact) : List String :=
  match artifact.2.stagingName? with
  | some name => [s!"mkdir -p {job.lastingRoot name}", s!"mkdir -p {job.temporaryRoot name}"] ++
      (job.staged artifact).map StagedFile.move
  | none => []

/-- The variable that tells where the files of an artifact are. -/
def stagingVariable? (job : Job) (artifact : String × Artifact) : Option (String × String) :=
  artifact.2.stagingName?.map fun name => (name, job.lastingRoot name)

def staging (job : Job) (artifacts : List (String × Artifact)) : RuntimeEnvironment :=
  RuntimeEnvironment.empty.add (artifacts.flatMap job.stagingCommands)
    ((artifacts.flatMap job.staged).map StagedFile.copy) (artifacts.filterMap job.stagingVariable?)

variable {artifact other : String × Artifact} {before after : List (String × Artifact)}
  {name otherName : String} {resources : Path} {f g : StagedFile}

/-- A file is copied to where the last artifact that has it says. -/
theorem preInstallFiles_staging (job : Job) (artifacts : List (String × Artifact))
    (source : String) : (job.staging artifacts).preInstallFiles[source]? =
      (StagedFile.lastFrom? source (artifacts.flatMap job.staged)).map (·.temporary) := by
  have hfold := NameMap.getElem?_foldl_insert
    ((artifacts.flatMap job.staged).map StagedFile.copy) ∅ source
  rw [Std.ExtTreeMap.getElem?_empty, Option.or_none, StagedFile.valuesUnder_copy,
    List.getLast?_map] at hfold
  exact hfold

theorem staged_eq (hname : artifact.2.stagingName? = some name)
    (hresources : job.resources? artifact.1 artifact.2 = some resources) :
    job.staged artifact = (job.files.filesBelow resources).filterMap
      (StagedFile.under? (job.temporaryRoot name) (job.lastingRoot name)) := by
  rw [staged, hname, hresources]

/-- An artifact is found in a directory. -/
theorem isDirectory_of_resources? {id : String} {a : Artifact}
    (h : job.resources? id a = some resources) : job.files.isDirectory resources = true := by
  obtain ⟨c, -, h⟩ := Option.bind_eq_some_iff.1 h
  obtain ⟨p, -, h⟩ := Option.bind_eq_some_iff.1 h
  split at h
  · next hdirectory =>
    cases h
    exact hdirectory
  · cases h

theorem map_source_staged (hfiles : job.files.root.isProper = true)
    (hname : artifact.2.stagingName? = some name)
    (hresources : job.resources? artifact.1 artifact.2 = some resources) :
    (job.staged artifact).map (·.source) = (job.files.filesBelow resources).map Path.text ∧
      ((job.staged artifact).map (·.source)).Nodup := by
  obtain ⟨hdistinct, hnamed⟩ := FileTree.filesBelow_distinct hfiles
    (isDirectory_of_resources? hresources)
  rw [staged_eq hname hresources, StagedFile.map_source_under? hnamed]
  exact ⟨rfl, hdistinct⟩

/-- A file of an artifact is copied to where this artifact moves it from exactly when no later
artifact says otherwise. -/
theorem copied_iff (hsources : ((job.staged artifact).map (·.source)).Nodup)
    (hf : f ∈ job.staged artifact) :
    (job.staging (before ++ artifact :: after)).preInstallFiles[f.source]? = some f.temporary ↔
      ∀ g, StagedFile.lastFrom? f.source (after.flatMap job.staged) = some g →
        g.temporary = f.temporary := by
  rw [preInstallFiles_staging, List.flatMap_append, List.flatMap_cons, StagedFile.lastFrom?_append,
    StagedFile.lastFrom?_append, StagedFile.lastFrom?_of_mem hsources hf]
  cases StagedFile.lastFrom? f.source (after.flatMap job.staged) with
  | none => simp
  | some g => simp

theorem mem_staged (hname : artifact.2.stagingName? = some name) (hf : f ∈ job.staged artifact) :
    ∃ called, Path.isName called = true ∧ f.name? = some called ∧
      f.temporary = remotePath (job.temporaryRoot name) called ∧
      f.lasting = remotePath (job.lastingRoot name) called := by
  rw [staged, hname] at hf
  cases hresources : job.resources? artifact.1 artifact.2 with
  | none =>
    rw [hresources] at hf
    cases hf
  | some resources =>
    rw [hresources] at hf
    obtain ⟨file, -, hfile⟩ := List.mem_filterMap.1 hf
    exact StagedFile.under?_eq_some hfile

/-- Two files go to one place when they are called the same and their artifacts have one root, up to
slashes at its end. -/
theorem meets_iff (hname : artifact.2.stagingName? = some name)
    (hother : other.2.stagingName? = some otherName) (hf : f ∈ job.staged artifact)
    (hg : g ∈ job.staged other) :
    (g.temporary = f.temporary ↔ Text.dropTrailing '/' (job.temporaryRoot otherName) =
        Text.dropTrailing '/' (job.temporaryRoot name) ∧ g.name? = f.name?) ∧
      (g.lasting = f.lasting ↔ Text.dropTrailing '/' (job.lastingRoot otherName) =
        Text.dropTrailing '/' (job.lastingRoot name) ∧ g.name? = f.name?) := by
  obtain ⟨called, hcalled, hfname, htemporary, hlasting⟩ := mem_staged hname hf
  obtain ⟨called', hcalled', hgname, htemporary', hlasting'⟩ := mem_staged hother hg
  rw [htemporary, hlasting, htemporary', hlasting', hfname, hgname, Option.some_inj,
    StagedFile.remotePath_eq_iff hcalled' hcalled, StagedFile.remotePath_eq_iff hcalled' hcalled]
  exact ⟨Iff.rfl, Iff.rfl⟩

/-- How an environment stages an artifact with a name that has some files, other artifacts being
staged later. -/
structure Stages (job : Job) (e : RuntimeEnvironment) (artifact : String × Artifact) (name : String)
    (files : List Path) (later : List (String × Artifact)) : Prop where
  /-- Each of the files is staged, -/
  sources : (job.staged artifact).map (·.source) = files.map Path.text
  /-- and none of them twice. -/
  distinct : (files.map Path.text).Nodup
  /-- After two directories are made each file is moved by one command. -/
  moves : ∃ earlier rest, e.preInstallCommands = earlier ++
    (s!"mkdir -p {job.lastingRoot name}" :: s!"mkdir -p {job.temporaryRoot name}" ::
      (job.staged artifact).map StagedFile.move) ++ rest
  /-- The files are kept apart exactly when all are called differently and no later artifact has one
  of them copied elsewhere. -/
  separates_iff : e.Separates (job.staged artifact) ↔ (files.filterMap Path.fileName?).Nodup ∧
    ∀ f ∈ job.staged artifact, ∀ g,
      StagedFile.lastFrom? f.source (later.flatMap job.staged) = some g → g.temporary = f.temporary
  /-- A file of another artifact takes the place of one of these exactly when it is called the same
  and is staged under the same root. -/
  meets_iff : ∀ other otherName, other.2.stagingName? = some otherName →
    ∀ f ∈ job.staged artifact, ∀ g ∈ job.staged other,
      (g.temporary = f.temporary ↔ Text.dropTrailing '/' (job.temporaryRoot otherName) =
          Text.dropTrailing '/' (job.temporaryRoot name) ∧ g.name? = f.name?) ∧
        (g.lasting = f.lasting ↔ Text.dropTrailing '/' (job.lastingRoot otherName) =
          Text.dropTrailing '/' (job.lastingRoot name) ∧ g.name? = f.name?)

theorem separates_iff (hsources : ((job.staged artifact).map (·.source)).Nodup)
    (hname : artifact.2.stagingName? = some name)
    (hresources : job.resources? artifact.1 artifact.2 = some resources) :
    (job.staging (before ++ artifact :: after)).Separates (job.staged artifact) ↔
      ((job.files.filesBelow resources).filterMap Path.fileName?).Nodup ∧
      ∀ f ∈ job.staged artifact, ∀ g,
        StagedFile.lastFrom? f.source (after.flatMap job.staged) = some g →
          g.temporary = f.temporary := by
  have htemporaries : ((job.staged artifact).map (·.temporary)).Nodup ↔
      ((job.files.filesBelow resources).filterMap Path.fileName?).Nodup := by
    rw [staged_eq hname hresources, StagedFile.map_temporary_under?,
      StagedFile.nodup_remotePath_iff]
  have hlastings : ((job.staged artifact).map (·.lasting)).Nodup ↔
      ((job.files.filesBelow resources).filterMap Path.fileName?).Nodup := by
    rw [staged_eq hname hresources, StagedFile.map_lasting_under?, StagedFile.nodup_remotePath_iff]
  constructor
  · intro h
    exact ⟨htemporaries.1 h.temporaries, fun f hf => (copied_iff hsources hf).1 (h.copied f hf)⟩
  · rintro ⟨hnames, hlater⟩
    exact ⟨fun f hf => (copied_iff hsources hf).2 (hlater f hf), htemporaries.2 hnames,
      hlastings.2 hnames⟩

theorem stages_staging (hfiles : job.files.root.isProper = true)
    (hname : artifact.2.stagingName? = some name)
    (hresources : job.resources? artifact.1 artifact.2 = some resources) :
    job.Stages (job.staging (before ++ artifact :: after)) artifact name
      (job.files.filesBelow resources) after := by
  obtain ⟨hsources, hdistinct⟩ := map_source_staged hfiles hname hresources
  constructor
  case sources => exact hsources
  case distinct => exact hsources ▸ hdistinct
  case moves =>
    refine ⟨before.flatMap job.stagingCommands, after.flatMap job.stagingCommands, ?_⟩
    have hcommands : job.stagingCommands artifact =
        s!"mkdir -p {job.lastingRoot name}" :: s!"mkdir -p {job.temporaryRoot name}" ::
          (job.staged artifact).map StagedFile.move := by
      rw [stagingCommands, hname]
      rfl
    have hall : (job.staging (before ++ artifact :: after)).preInstallCommands =
        (before ++ artifact :: after).flatMap job.stagingCommands := List.nil_append _
    rw [hall, List.flatMap_append, List.flatMap_cons, hcommands, List.append_assoc]
  case separates_iff => exact separates_iff hdistinct hname hresources
  case meets_iff => exact fun other otherName hother f hf g hg => meets_iff hname hother hf hg

end Job

namespace Build

variable {job : Job} {n : NodeTemplate} {p p' : NodePlan} {q q' : Pass}

/-- An artifact is staged, or leaves the environment as it is. -/
theorem stageArtifact_run (job : Job) (e : RuntimeEnvironment) (artifact : String × Artifact)
    (q : Pass) : (stageArtifact job e artifact q).1 =
      e.add (job.stagingCommands artifact) ((job.staged artifact).map StagedFile.copy)
        (job.stagingVariable? artifact).toList := by
  obtain ⟨id, a⟩ := artifact
  have hunstaged (hnone : a.stagingName? = none) : e = e.add (job.stagingCommands (id, a))
      ((job.staged (id, a)).map StagedFile.copy) (job.stagingVariable? (id, a)).toList := by
    simp [Job.stagingCommands, Job.staged, Job.stagingVariable?, hnone]
  by_cases htype : a.artifactType = some fileArtifact
  · cases hname : a.artifactName with
    | none =>
      have hnone : a.stagingName? = none := by simp [Artifact.stagingName?, hname]
      rw [← hunstaged hnone]
      simp only [stageArtifact, htype, hname, if_true]
      rfl
    | some name =>
      by_cases hblank : Text.isBlank name = true
      · have hnone : a.stagingName? = none := by simp [Artifact.stagingName?, hname, hblank]
        rw [← hunstaged hnone]
        simp only [stageArtifact, htype, hname, hblank, if_true]
        rfl
      · have hsome : a.stagingName? = some name := by
          simp [Artifact.stagingName?, htype, hname, hblank]
        have hstaged : (stageArtifact job e (id, a) q).1 = (stageNamed job e id name a q).1 := by
          simp only [stageArtifact, htype, hname, hblank, if_true]
          rfl
        rw [hstaged, stageNamed]
        cases hresources : job.resources? id a with
        | none =>
          simp only [Job.stagingCommands, Job.staged, Job.stagingVariable?, hsome, hresources]
          rfl
        | some resources =>
          have hlisting := FileTree.listing_eq_ok_iff.2
            ⟨Job.isDirectory_of_resources? hresources, rfl⟩
          simp only [Job.stagingCommands, Job.staged, Job.stagingVariable?, hsome, hresources,
            hlisting]
          refine (RuntimeEnvironment.foldl_addFile _ _ _).trans ?_
          rw [RuntimeEnvironment.addRoots_eq, RuntimeEnvironment.add_add]
          rfl
  · have hnone : a.stagingName? = none := by simp [Artifact.stagingName?, htype]
    rw [← hunstaged hnone]
    simp only [stageArtifact, htype, if_false]
    rfl

theorem foldlM_stageArtifact (job : Job) (artifacts : List (String × Artifact))
    (e : RuntimeEnvironment) (q : Pass) : (artifacts.foldlM (stageArtifact job) e q).1 =
      e.add (artifacts.flatMap job.stagingCommands)
        ((artifacts.flatMap job.staged).map StagedFile.copy)
        (artifacts.filterMap job.stagingVariable?) := by
  induction artifacts generalizing e q with
  | nil => exact RuntimeEnvironment.add_nil.symm
  | cons artifact artifacts ih =>
    have hrun : ((artifact :: artifacts).foldlM (stageArtifact job) e q).1 =
        (artifacts.foldlM (stageArtifact job) (stageArtifact job e artifact q).1
          (stageArtifact job e artifact q).2).1 := by
      rw [List.foldlM_cons]
      rfl
    rw [hrun, ih, stageArtifact_run, RuntimeEnvironment.add_add, List.flatMap_cons,
      List.flatMap_cons, List.map_append, List.filterMap_cons]
    cases job.stagingVariable? artifact <;> rfl

/-- A scripted plan has the environment in which the artifacts of its type are staged. -/
theorem runtime_of_nodePlan {id : String} {children : Nat}
    (h : nodePlan job id children q = (.ok p, q')) (hscripted : p.scripted = true) :
    ∃ n, job.scene.topology.node? id = some n ∧
      p.runtime = job.staging (job.profile n.nodeType).artifacts := by
  obtain ⟨n, kind, i, p₃, q₃, hn, -, hscripting, h⟩ := nodePlan_steps h
  have hruntime : p₃.runtime = .empty := by
    simp only [NodePlan.scripting, Prod.mk.injEq] at hscripting
    exact hscripting.2.2.2.2
  refine ⟨n, hn, ?_⟩
  split at h
  · obtain ⟨p₄, q₄, h₄, h⟩ := bind_eq_ok h
    obtain ⟨p₅, q₅, h₅, h⟩ := bind_eq_ok h
    obtain ⟨cs, q₆, -, h⟩ := bind_eq_ok h
    cases h
    obtain ⟨rfl, rfl⟩ := lift_eq_ok h₄
    obtain ⟨rfl, rfl⟩ := lift_eq_ok h₅
    have hcommands (p : NodePlan) (slot : CommandSlot) (v : PlanValue) :
        (p.setCommand slot v).runtime = p.runtime := rfl
    have hattributes (p : NodePlan) (attributes : NameMap PlanValue) :
        { p with attributes }.runtime = p.runtime := rfl
    rw [NodePlan.setCommands_keeps hcommands, NodePlan.setIdle_keeps hcommands,
      putAttributes_keeps hattributes]
    refine (foldlM_stageArtifact job _ p₃.runtime q₃).trans ?_
    rw [hruntime, Job.staging]
  · next hno =>
    cases h
    exact absurd hscripted hno

end Build

end DeployPlan
