import DeployPlan.Proofs.Build.Counterparts
import DeployPlan.Proofs.Compiler.Failure
import DeployPlan.Proofs.TypeCatalog.SameUpToAliases

/-!
# Commands up to aliases

Which operations a node is run by, and so its commands, can depend on the aliases under which its
type and their ancestors declare the interface of the lifecycle: of the definitions on the chain
those count that use the first alias on it. The alias that the node itself uses does not matter, nor
do those of types as long as the same definitions count.
-/
namespace DeployPlan

/-- Node templates that are the same up to aliases of the lifecycle. -/
structure NodeTemplate.SameUpToAliases (n n' : NodeTemplate) : Prop where
  interfaces : List.Forall₂ Interface.SameUpToAlias n.interfaces n'.interfaces
  rest : n' = { n with interfaces := n'.interfaces }

instance (n n' : NodeTemplate) : Decidable (n.SameUpToAliases n') :=
  decidable_of_iff (_ ∧ _) ⟨fun h => ⟨h.1, h.2⟩, fun h => ⟨h.interfaces, h.rest⟩⟩

namespace NodeTemplate.SameUpToAliases

variable {n n' : NodeTemplate}

theorem counterpart (h : n.SameUpToAliases n') : n.Counterpart n' := by
  rw [h.rest]
  exact ⟨rfl, rfl, rfl, rfl, rfl⟩

theorem effectiveName (h : n.SameUpToAliases n') : n'.effectiveName = n.effectiveName := by
  rw [h.rest]
  rfl

end NodeTemplate.SameUpToAliases

/-- Topologies whose nodes are the same up to aliases of the lifecycle. -/
structure Topology.SameUpToAliases (t t' : Topology) : Prop where
  nodes : List.Forall₂ NodeTemplate.SameUpToAliases t.nodes t'.nodes
  rest : t' = { t with nodes := t'.nodes }

instance (t t' : Topology) : Decidable (t.SameUpToAliases t') :=
  decidable_of_iff (_ ∧ _) ⟨fun h => ⟨h.1, h.2⟩, fun h => ⟨h.nodes, h.rest⟩⟩

namespace Topology.SameUpToAliases

variable {t t' : Topology}

theorem dependencies (h : t.SameUpToAliases t') : t'.dependencies = t.dependencies := by rw [h.rest]

theorem archive (h : t.SameUpToAliases t') : t'.archive = t.archive := by rw [h.rest]

theorem counterpart (h : t.SameUpToAliases t') : t.Counterpart t' :=
  h.nodes.imp fun _ _ hn => hn.counterpart

theorem node? (h : t.SameUpToAliases t') (id : String) :
    Option.Rel NodeTemplate.SameUpToAliases (t.node? id) (t'.node? id) :=
  rel_find? (List.forall₂_reverse_iff.2 h.nodes) fun _ _ hn => by rw [hn.counterpart.id]

theorem usedTypes (h : t.SameUpToAliases t') : Scene.usedTypes t' = Scene.usedTypes t := by
  have hmap : t'.nodes.map (fun n => n.nodeType :: n.relationships.map (·.relationshipType)) =
      t.nodes.map fun n => n.nodeType :: n.relationships.map (·.relationshipType) :=
    map_eq_of_forall₂ h.nodes fun n n' hn => by
      rw [hn.counterpart.nodeType, hn.counterpart.relationships]
  rw [Scene.usedTypes, Scene.usedTypes, List.flatMap_def, List.flatMap_def, hmap]

end Topology.SameUpToAliases

section

variable {c c' : TypeCatalog} {t t' : Topology}

/-- A type is refused by both look-ups or its profiles agree but for the lifecycle. -/
def Scene.LookedUpAlike (lookup lookup' : TypeLookup) (dependencies : List Coordinates) : Prop :=
  ∀ name,
    (∃ f, lookup name dependencies = .error f ∧ lookup' name dependencies = .error f) ∨
    ∃ p p', lookup name dependencies = .ok p ∧ lookup' name dependencies = .ok p' ∧
      p.SameButLifecycle p'

theorem TypeCatalog.SameUpToAliases.lookedUpAlike (hc : c.Built) (hc' : c'.Built)
    (h : c.SameUpToAliases c') (dependencies : List Coordinates) :
    Scene.LookedUpAlike c.lookup c'.lookup dependencies := by
  intro name
  rcases h.lookup name dependencies with hrefused | ⟨ds, ds', parents, hd, hd', hds⟩
  · exact .inl hrefused
  · exact .inr ⟨_, _, lookup_of_derivation hd, lookup_of_derivation hd',
      sameButLifecycle_folded hds (fun d hmem => hc.distinct d (hd.mem d hmem))
        (fun d hmem => hc'.distinct d (hd'.mem d hmem)) name parents⟩

namespace Scene

section

variable {lookup lookup' : TypeLookup} {dependencies : List Coordinates}

theorem LookedUpAlike.profileFor (h : LookedUpAlike lookup lookup' dependencies) (name : String) :
    (Scene.profileFor lookup dependencies name).SameButLifecycle
      (Scene.profileFor lookup' dependencies name) := by
  unfold Scene.profileFor
  rcases h name with ⟨f, hf, hf'⟩ | ⟨p, p', hp, hp', hsame⟩
  · rw [hf, hf']
    exact .refl _
  · rw [hp, hp']
    exact hsame

/-- Types are looked up in turn with the same outcome and the same notes. -/
theorem LookedUpAlike.gather (h : LookedUpAlike lookup lookup' dependencies) (names : List String)
    {known known' : List (String × TypeProfile)}
    (hknown : Entries.names known' = Entries.names known) (log : Log) :
    Prod.map (Except.map fun _ => ()) id (Scene.gather lookup' dependencies names known' log) =
      Prod.map (Except.map fun _ => ()) id (Scene.gather lookup dependencies names known log) := by
  induction names generalizing known known' log with
  | nil => rfl
  | cons name names ih =>
    have hhas : Entries.has name known' = Entries.has name known := by
      rw [Bool.eq_iff_iff, Entries.has_iff_mem_names, Entries.has_iff_mem_names, hknown]
    simp only [Scene.gather, hhas]
    split
    · exact ih hknown log
    · rcases h name with ⟨f, hf, hf'⟩ | ⟨p, p', hp, hp', hsame⟩
      · rw [hf, hf']
      · have hnote : noteType name p' log = noteType name p log := by
          rw [noteType, noteType, hsame.isUndefined]
        have hnames : Entries.names (known' ++ [(name, p')]) =
            Entries.names (known ++ [(name, p)]) := by
          rw [Entries.names, Entries.names, List.map_append, List.map_append, ← Entries.names,
            ← Entries.names, hknown]
          rfl
        simp only [hp, hp', hnote]
        exact ih hnames _

end

variable (hc : c.Built) (hc' : c'.Built) (hcc : c.SameUpToAliases c') (htt : t.SameUpToAliases t')

include hc hc' hcc htt

theorem sameButLifecycle_ofTypes (typeName : String) :
    ((ofTypes c.lookup t).profile typeName).SameButLifecycle
      ((ofTypes c'.lookup t').profile typeName) := by
  rw [profile_ofTypes, profile_ofTypes, htt.usedTypes, htt.dependencies]
  split
  · exact (hcc.lookedUpAlike hc hc' t.dependencies).profileFor typeName
  · exact .refl _

theorem counterpart_ofTypes : (ofTypes c.lookup t).Counterpart (ofTypes c'.lookup t') where
  topology := htt.counterpart
  properties typeName := (sameButLifecycle_ofTypes hc hc' hcc htt typeName).properties

omit hc hc' hcc in
theorem denotesIn_ofTypes (key : String) :
    (ofTypes c.lookup t).DenotesIn (ofTypes c'.lookup t') key := by
  intro scope
  unfold entity?
  cases scope.get? key with
  | some id => exact htt.counterpart.node? id
  | none =>
    by_cases hkeyword : isKeyword key = true
    · simp only [hkeyword, if_true]
      exact .none
    · simp only [hkeyword]
      have hnamed := rel_find? (p := (·.effectiveName = key)) (q := (·.effectiveName = key))
        htt.nodes fun _ _ hn => by rw [hn.effectiveName]
      exact rel_imp (rel_or (htt.node? key) hnamed) fun _ _ hn => hn.counterpart

/-- The types of both topologies are looked up with the same outcome, and with the same notes. -/
theorem build_sameUpToAliases (log : Log) : build c'.lookup t' log =
    ((build c.lookup t log).1.map fun _ => ofTypes c'.lookup t', (build c.lookup t log).2) := by
  have hgather := (hcc.lookedUpAlike hc hc' t.dependencies).gather (usedTypes t)
    (rfl : Entries.names [] = Entries.names []) log
  have hscene : ∀ s log', build c'.lookup t' log = (.ok s, log') → s = ofTypes c'.lookup t' :=
    fun s log' h => (build_ok h).1
  rw [build, htt.usedTypes, htt.dependencies] at hscene ⊢
  rw [build]
  generalize gather c.lookup t.dependencies (usedTypes t) [] log = found at hgather
  generalize gather c'.lookup t.dependencies (usedTypes t) [] log = found' at hgather hscene
  obtain ⟨f | profiles, log₁⟩ := found <;> obtain ⟨f' | profiles', log₁'⟩ := found' <;>
    cases hgather
  · rfl
  · simp only [hscene _ _ rfl]
    rfl

end Scene

/-- The jobs of both topologies are counterparts. -/
theorem Job.counterpart_of (hc : c.Built) (hc' : c'.Built) (hcc : c.SameUpToAliases c')
    (htt : t.SameUpToAliases t') (s : Settings) (env : Surroundings) :
    (Job.of s { env with types := c.lookup } t).Counterpart
      (Job.of s { env with types := c'.lookup } t') where
  scene := Scene.counterpart_ofTypes hc hc' hcc htt
  archive := htt.archive
  files := rfl
  settings := rfl
  keys _ _ key _ := Scene.denotesIn_ofTypes htt key
  edgeOperations r := by
    have hsame := (Scene.sameButLifecycle_ofTypes hc hc' hcc htt r.relationshipType).operations
      relationshipConfigure (by decide)
    unfold Build.edgeOperations mergedOperations
    exact congrArg (fun base => List.foldl (fun ops op => overlayOperation op ops) base _) hsame

end

namespace Build

section

variable {c c' : TypeCatalog} {t t' : Topology} {n n' : NodeTemplate} {ds ds' : List TypeDefinition}
  {parents parents' : List String}

theorem profile_of_derivation (hn : n ∈ t.nodes)
    (hd : c.Derivation t.dependencies n.nodeType ds parents) (s : Settings) (env : Surroundings) :
    (Job.of s { env with types := c.lookup } t).profile n.nodeType =
      TypeCatalog.folded n.nodeType ds parents :=
  Job.profile_of (List.mem_flatMap.2 ⟨n, hn, List.mem_cons_self⟩)
    (TypeCatalog.lookup_of_derivation hd)

/-- A node is run by its own operation of a name if that names a script, else by that of the nearest
definition that counts and declares one. -/
theorem findBy?_ownOperations (hc : c.Built) (hn : n ∈ t.nodes)
    (hdistinct : ∀ i ∈ n.interfaces, i.Distinct)
    (hd : c.Derivation t.dependencies n.nodeType ds parents) (s : Settings) (env : Surroundings)
    (x : String) :
    findBy? Operation.name x (ownOperations (Job.of s { env with types := c.lookup } t) n) =
      (((findBy? Operation.name x (operationsUnder nodeLifecycle n.interfaces)).filter
        (·.isEffective)).or
        (ds.findSome? fun d => findBy? Operation.name x (d.counted nodeLifecycle ds))).or
        (findBy? Operation.name x (operationsUnder nodeLifecycle n.interfaces)) := by
  have hds (d : TypeDefinition) (hmem : d ∈ ds) : d.Distinct := hc.distinct d (hd.mem d hmem)
  have hinherited : findBy? Operation.name x
      (operationsUnder nodeLifecycle (TypeCatalog.folded n.nodeType ds parents).interfaces) =
        ds.findSome? fun d => findBy? Operation.name x (d.counted nodeLifecycle ds) := by
    rw [TypeCatalog.operationsUnder_folded hds, findBy?_layered, List.findSome?_map]
    · rfl
    · exact List.forall_mem_map.2 fun d hd => TypeDefinition.nodup_counted (hds d hd)
  rw [ownOperations, findBy?_mergedOperations hdistinct, profile_of_derivation hn hd, hinherited]

/-- A node has the same operations if the same definitions on the chain of its type count. -/
theorem ownOperations_of_sameUpToAliases (hc : c.Built) (hc' : c'.Built)
    (hcc : c.SameUpToAliases c') (htt : t.SameUpToAliases t') (hn : n ∈ t.nodes)
    (hn' : n' ∈ t'.nodes) (hsame : n.SameUpToAliases n') (hown : OneLifecycle n.interfaces)
    (hd : c.Derivation t.dependencies n.nodeType ds parents)
    (hd' : c'.Derivation t.dependencies n.nodeType ds' parents')
    (hone : ∀ d ∈ ds, OneLifecycle d.interfaces)
    (hcounts : List.Forall₂
      (fun d d' => d.Counts nodeLifecycle ds ↔ d'.Counts nodeLifecycle ds') ds ds')
    (s : Settings) (env : Surroundings) :
    ownOperations (Job.of s { env with types := c'.lookup } t') n' =
      ownOperations (Job.of s { env with types := c.lookup } t) n := by
  have hds (d : TypeDefinition) (hmem : d ∈ ds) : d.Distinct := hc.distinct d (hd.mem d hmem)
  have hds' (d : TypeDefinition) (hmem : d ∈ ds') : d.Distinct := hc'.distinct d (hd'.mem d hmem)
  obtain ⟨rfl, hchains⟩ := hcc.chains hd hd'
  have hinherited := TypeCatalog.lifecycle_folded hchains hds hds' hone hcounts n.nodeType parents
  rw [← htt.dependencies, ← hsame.counterpart.nodeType] at hd'
  rw [ownOperations, ownOperations, profile_of_derivation hn hd, profile_of_derivation hn' hd',
    hsame.counterpart.nodeType, mergedOperations, mergedOperations, hinherited,
    hown.operationsUnder_eq hsame.interfaces]

end

/-- Catalogs and topologies that are the same up to aliases are looked up with the same outcome. A
node is run by its own operation of a name if that names a script, whatever its alias, else by that
of the nearest definition that counts and declares one. If the same definitions on the chain of its
type count in both catalogs, then the node has the same operations and gets the same commands. -/
theorem commands_of_sameUpToAliases {c c' : TypeCatalog} {t t' : Topology} {n n' : NodeTemplate}
    {id : String} {ds ds' : List TypeDefinition} {parents parents' : List String}
    (hc : c.Built) (hc' : c'.Built) (hcc : c.SameUpToAliases c') (htt : t.SameUpToAliases t')
    (hn : t.node? id = some n) (hn' : t'.node? id = some n')
    (hdistinct : ∀ i ∈ n.interfaces, i.Distinct) (hown : OneLifecycle n.interfaces)
    (hd : c.Derivation t.dependencies n.nodeType ds parents)
    (hd' : c'.Derivation t.dependencies n.nodeType ds' parents')
    (hone : ∀ d ∈ ds, OneLifecycle d.interfaces) (s : Settings) (env : Surroundings) :
    let job := Job.of s { env with types := c.lookup } t
    let job' := Job.of s { env with types := c'.lookup } t'
    let own := fun x => findBy? Operation.name x (operationsUnder nodeLifecycle n.interfaces)
    let inherited := fun x =>
      ds.findSome? fun d => findBy? Operation.name x (d.counted nodeLifecycle ds)
    (∀ log, Scene.build c'.lookup t' log =
      ((Scene.build c.lookup t log).1.map fun _ => job'.scene, (Scene.build c.lookup t log).2)) ∧
    (∀ x, findBy? Operation.name x (ownOperations job n) =
      (((own x).filter (·.isEffective)).or (inherited x)).or (own x)) ∧
    (List.Forall₂ (fun d d' => d.Counts nodeLifecycle ds ↔ d'.Counts nodeLifecycle ds') ds ds' →
      ownOperations job' n' = ownOperations job n ∧
      ∀ p, putCommands job' n' p = putCommands job n p) := by
  intro job job' own inherited
  have hmem := Topology.mem_of_node? hn
  have hmem' := Topology.mem_of_node? hn'
  have hsame : n.SameUpToAliases n' := by
    have hrel := htt.node? id
    rw [hn, hn'] at hrel
    cases hrel with
    | some hsame => exact hsame
  refine ⟨Scene.build_sameUpToAliases hc hc' hcc htt,
    findBy?_ownOperations hc hmem hdistinct hd s env, fun hcounts => ?_⟩
  have hoperations : ownOperations job' n' = ownOperations job n :=
    ownOperations_of_sameUpToAliases hc hc' hcc htt hmem hmem' hsame hown hd hd' hone hcounts s env
  exact ⟨hoperations, putCommands_counterpart (Job.counterpart_of hc hc' hcc htt s env)
    hsame.counterpart hmem hoperations⟩

/-- The types of a document: a root type, one derived from it and one derived from that, which
declare the interface of the lifecycle under the aliases given for them. -/
def layeredTypes (root base app : String) : TypeCatalog :=
  (TypeCatalog.empty.merge <| .obj [("node_types", .obj [
    ("Root", .obj [("interfaces", .obj [(root, .obj [
      ("create", .str "root.sh"), ("stop", .str "halt.sh")])])]),
    ("Base", .obj [("derived_from", .str "Root"), ("interfaces", .obj [(base, .obj [
      ("create", .str "base.sh"), ("start", .str "idle.sh")])])]),
    ("App", .obj [("derived_from", .str "Base"), ("interfaces", .obj [(app, .obj [
      ("start", .str "app.sh")])])])])]).2

theorem built_layeredTypes (root base app : String) : (layeredTypes root base app).Built :=
  .merge .empty rfl

theorem derivation_layeredTypes (root base app : String) :
    (layeredTypes root base app).Derivation [] "App"
      (layeredTypes root base app).definitions.reverse ["Base", "Root"] :=
  TypeCatalog.climb_eq_ok_iff.1 rfl

/-- An application with a script of its own to configure it, and none to start it. -/
def layeredNode (own : String) : NodeTemplate :=
  ⟨"web", "App", none, none, ∅, [], [], [⟨own, [
    ⟨"start", none, []⟩, ⟨"configure", some (.ofReference "own.sh"), []⟩]⟩], []⟩

def layeredSite (own : String) : Topology := ⟨"site", [layeredNode own], [], [], none⟩

/-- The job of the site, its scripts in the working directory. -/
def layeredJob (types : TypeCatalog) (own : String) : Job :=
  let files := ["root", "halt", "base", "idle", "app", "own"].foldl (fun files name =>
    files.put ⟨name ++ ".sh"⟩ (.file name.toUTF8)) (FileTree.emptyAt [])
  Job.of (.initial ⟨none, none⟩) ⟨types.lookup, .empty, files⟩ (layeredSite own)

def scripts (job : Job) (n : NodeTemplate) : List (String × Option String) :=
  (ownOperations job n).map fun op => (op.name, op.implementation.map (·.reference))

def commandOf (job : Job) (n : NodeTemplate) (slot : CommandSlot) : Option PlanValue :=
  (putCommands job n (.start .scriptedProcess .empty)
    (.start (.start .error false))).1.toOption.bind fun p => p.commands[slot]?

/-- The two types nearest to the application count, and still do under another alias. -/
theorem commands_layeredSite :
    let types := layeredTypes "standard" "Standard" "Standard"
    let types' := layeredTypes "standard" "tosca.interfaces.node.lifecycle.Standard"
      "tosca.interfaces.node.lifecycle.Standard"
    ownOperations (layeredJob types' "Standard") (layeredNode "Standard") =
      ownOperations (layeredJob types "standard") (layeredNode "standard") ∧
    (∀ p, putCommands (layeredJob types' "Standard") (layeredNode "Standard") p =
      putCommands (layeredJob types "standard") (layeredNode "standard") p) ∧
    scripts (layeredJob types "standard") (layeredNode "standard") =
      [("create", some "base.sh"), ("start", some "app.sh"), ("configure", some "own.sh")] := by
  intro types types'
  have htypes : types.SameUpToAliases types' := by decide +kernel
  have hsite : (layeredSite "standard").SameUpToAliases (layeredSite "Standard") := by
    decide +kernel
  have hone : ∀ d ∈ types.definitions.reverse, OneLifecycle d.interfaces := by decide +kernel
  have hcounts : List.Forall₂ (fun d d' => d.Counts nodeLifecycle types.definitions.reverse ↔
      d'.Counts nodeLifecycle types'.definitions.reverse)
      types.definitions.reverse types'.definitions.reverse := by
    decide +kernel
  have hnode (own : String) : (layeredSite own).node? "web" = some (layeredNode own) := rfl
  have hsame := commands_of_sameUpToAliases (built_layeredTypes _ _ _) (built_layeredTypes _ _ _)
    htypes hsite (hnode "standard") (hnode "Standard") (by decide) (by decide)
    (derivation_layeredTypes _ _ _) (derivation_layeredTypes _ _ _) hone (.initial ⟨none, none⟩)
    ⟨types.lookup, .empty, (layeredJob types "standard").files⟩
  exact ⟨(hsame.2.2 hcounts).1, (hsame.2.2 hcounts).2, by decide +kernel⟩

/-- Declared under a later alias than that of an inherited one, the operation that starts the
application does not count, though every type and the node declare the lifecycle once. -/
theorem not_same_layeredSite :
    let types := layeredTypes "Standard" "Standard" "standard"
    let types' := layeredTypes "Standard" "Standard" "Standard"
    types.SameUpToAliases types' ∧
    (∀ d ∈ types.definitions, OneLifecycle d.interfaces) ∧
    OneLifecycle (layeredNode "Standard").interfaces ∧
    scripts (layeredJob types "Standard") (layeredNode "Standard") =
      [("create", some "base.sh"), ("stop", some "halt.sh"), ("start", some "idle.sh"),
        ("configure", some "own.sh")] ∧
    scripts (layeredJob types' "Standard") (layeredNode "Standard") =
      [("create", some "base.sh"), ("stop", some "halt.sh"), ("start", some "app.sh"),
        ("configure", some "own.sh")] ∧
    commandOf (layeredJob types "Standard") (layeredNode "Standard") .launch =
      some (.ofText "idle") ∧
    commandOf (layeredJob types' "Standard") (layeredNode "Standard") .launch =
      some (.ofText "app") := by
  decide +kernel

end Build

end DeployPlan
