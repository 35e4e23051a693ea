import DeployPlan.Proofs.Build.Kinds
import DeployPlan.Proofs.Compiler.Aliases

/-!
# Inherited operations

Where the types on a chain declare the lifecycle under one alias, a node is run by the operation of
the nearest of them that declares one of the name, unless the node has one with a script. So a
declaration of the node without a script hides none, but one of a type hides those of the types
above it: then the node has no script of its own for the slot.
-/
namespace DeployPlan

variable {aliases : List String} {a x : String} {is : List Interface}

/-- All interfaces under some aliases are under one. -/
def OnlyAlias (aliases : List String) (a : String) (is : List Interface) : Prop :=
  ∀ i ∈ is, i.name ∈ aliases → i.name = a

instance (aliases : List String) (a : String) (is : List Interface) :
    Decidable (OnlyAlias aliases a is) :=
  inferInstanceAs (Decidable (∀ _ ∈ _, _))

/-- The operation of a name that interfaces declare for the lifecycle of nodes. -/
def declared? (x : String) (is : List Interface) : Option Operation :=
  findBy? Operation.name x (operationsUnder nodeLifecycle is)

theorem OnlyAlias.firstAlias?_eq (h : OnlyAlias aliases a is) {i : Interface} (hi : i ∈ is)
    (hname : i.name ∈ aliases) : firstAlias? aliases is = some a := by
  have hsome : (firstAlias? aliases is).isSome = true := by
    rw [firstAlias?, List.find?_isSome]
    exact ⟨i.name, hname, decide_eq_true (List.mem_map_of_mem hi)⟩
  obtain ⟨b, hb⟩ := Option.isSome_iff_exists.1 hsome
  have hmem : b ∈ is.map (·.name) := by simpa using List.find?_some hb
  obtain ⟨j, hj, rfl⟩ := List.mem_map.1 hmem
  rw [hb, h j hj (List.mem_of_find?_eq_some hb)]

/-- Where there is one alias on a chain, every definition counts with all that it declares. -/
theorem TypeDefinition.counted_of_onlyAlias {ds : List TypeDefinition} {d : TypeDefinition}
    (h : ∀ e ∈ ds, OnlyAlias aliases a e.interfaces) (hd : d ∈ ds) :
    d.counted aliases ds = operationsUnder aliases d.interfaces := by
  have hall : OnlyAlias aliases a (ds.flatMap (·.interfaces)) := by
    intro i hi
    obtain ⟨e, he, hie⟩ := List.mem_flatMap.1 hi
    exact h e he i hie
  rw [counted]
  split
  · rfl
  · next hcounts =>
    -- A definition with the alias would count, so this one has no interface under it.
    by_cases hsome : ∃ i ∈ d.interfaces, i.name ∈ aliases
    · obtain ⟨i, hi, hname⟩ := hsome
      refine absurd ?_ hcounts
      rw [Counts, (h d hd).firstAlias?_eq hi hname,
        hall.firstAlias?_eq (List.mem_flatMap.2 ⟨d, hd, hi⟩) hname]
    · have hnone : firstAlias? aliases d.interfaces = none := by
        refine List.find?_eq_none.2 fun b hb hdec => ?_
        obtain ⟨i, hi, rfl⟩ := List.mem_map.1 (of_decide_eq_true hdec)
        exact hsome ⟨i, hi, hb⟩
      rw [operationsUnder_eq_elim, hnone]
      rfl

/-- Where there is one alias on a chain, the first operation of a name that counts is that of the
first definition that declares one. -/
theorem TypeDefinition.findSome?_counted {ds : List TypeDefinition}
    (h : ∀ e ∈ ds, OnlyAlias nodeLifecycle a e.interfaces) (x : String) :
    (ds.findSome? fun e => findBy? Operation.name x (e.counted nodeLifecycle ds)) =
      ds.findSome? fun e => declared? x e.interfaces := by
  have hmap : ds.map (·.counted nodeLifecycle ds) =
      ds.map fun e => operationsUnder nodeLifecycle e.interfaces :=
    List.map_congr_left fun e he => counted_of_onlyAlias h he
  have hfound := congrArg (List.findSome? (findBy? Operation.name x)) hmap
  rwa [List.findSome?_map, List.findSome?_map] at hfound

/-- Only one name belongs to a slot of a node. -/
theorem nodeStage?_inj {y : String} {slot : CommandSlot} (h : nodeStage? x = some slot)
    (h' : nodeStage? y = some slot) : x = y := by
  unfold nodeStage? at h h'
  split at h <;> cases h <;> split at h' <;> cases h' <;> rfl

namespace Contributor

variable {slot : CommandSlot} {scope : Scope} {op : Operation}

theorem ofOperation?_eq_none (h : op.isEffective = false) :
    ofOperation? (some slot) scope op = none := by
  unfold Operation.isEffective at h
  cases himpl : op.implementation with
  | none => simp [ofOperation?, himpl]
  | some artifact =>
    rw [himpl] at h
    simp [ofOperation?, himpl, Option.filter, h]

/-- Of operations with distinct names only the one of the slot's name contributes to the slot. -/
theorem filter_slot {ops : List Operation} (h : (ops.map (·.name)).Nodup)
    (hslot : nodeStage? x = some slot) (scope : Scope) :
    (ops.filterMap fun op => ofOperation? (nodeStage? op.name) scope op).filter (·.slot = slot) =
      ((findBy? Operation.name x ops).bind (ofOperation? (some slot) scope)).toList := by
  induction ops with
  | nil => rfl
  | cons op ops ih =>
    rw [List.map_cons, List.nodup_cons] at h
    rw [List.filterMap_cons, findBy?_cons]
    by_cases hname : op.name = x
    · have hrest := ih h.2
      rw [findBy?_eq_none (hname ▸ h.1)] at hrest
      rw [if_pos hname, hname, hslot, Option.bind_some]
      cases hof : ofOperation? (some slot) scope op with
      | none => exact hrest
      | some b =>
        have hb : slot = b.slot := Option.some.inj (slot_of_ofOperation? hof)
        show List.filter (·.slot = slot) (b :: _) = [b]
        rw [List.filter_cons_of_pos (by simpa using hb.symm), hrest]
        rfl
    · rw [if_neg hname, ← ih h.2]
      cases hof : ofOperation? (nodeStage? op.name) scope op with
      | none => rfl
      | some b =>
        have hb : b.slot ≠ slot := by
          intro heq
          exact hname (nodeStage?_inj (heq ▸ slot_of_ofOperation? hof) hslot)
        exact List.filter_cons_of_neg (by simpa using hb)

end Contributor

namespace Build

section

variable {c : TypeCatalog} {t : Topology} {n : NodeTemplate} {ds : List TypeDefinition}
  {parents : List String}

theorem nodup_ownOperations (hc : c.Built) (hn : n ∈ t.nodes)
    (hd : c.Derivation t.dependencies n.nodeType ds parents) (s : Settings) (env : Surroundings) :
    ((ownOperations (Job.of s { env with types := c.lookup } t) n).map (·.name)).Nodup := by
  have hds (d : TypeDefinition) (hmem : d ∈ ds) : d.Distinct := hc.distinct d (hd.mem d hmem)
  rw [ownOperations, profile_of_derivation hn hd]
  refine nodup_mergedOperations ?_ _
  rw [TypeCatalog.operationsUnder_folded hds]
  exact nodup_layered _

end

/-- Where a type on the chain of a node declares an operation with a script, and neither the node
nor a type nearer to it one with a script, the node is run by that of the nearest type that declares
the operation at all. So it is run by the operation with the script exactly when no nearer type
declares one of its name, and otherwise the slot of the operation gets nothing from it. -/
theorem operation_of_unscripted {c : TypeCatalog} {t : Topology} {n : NodeTemplate} {a x : String}
    {nearer farther : List TypeDefinition} {d : TypeDefinition} {op : Operation}
    {parents : List String} (hc : c.Built) (hn : n ∈ t.nodes)
    (hdistinct : ∀ i ∈ n.interfaces, i.Distinct)
    (hd : c.Derivation t.dependencies n.nodeType (nearer ++ d :: farther) parents)
    (hone : ∀ e ∈ nearer ++ d :: farther, OnlyAlias nodeLifecycle a e.interfaces)
    (hop : declared? x d.interfaces = some op) (hscript : op.isEffective = true)
    (hnearer : ∀ e ∈ nearer, ∀ o, declared? x e.interfaces = some o → o.isEffective = false)
    (hnode : ∀ o, declared? x n.interfaces = some o → o.isEffective = false) (s : Settings)
    (env : Surroundings) :
    let job := Job.of s { env with types := c.lookup } t
    let run := findBy? Operation.name x (ownOperations job n)
    run = some ((nearer.findSome? fun e => declared? x e.interfaces).getD op) ∧
    (run = some op ↔ ∀ e ∈ nearer, declared? x e.interfaces = none) ∧
    ∀ slot, nodeStage? x = some slot → (Contributor.own job n).filter (·.slot = slot) =
      if ∀ e ∈ nearer, declared? x e.interfaces = none then
        (Contributor.ofOperation? (some slot) (t.nodeScope n.id) op).toList
      else [] := by
  intro job run
  have hown : (declared? x n.interfaces).filter (·.isEffective) = none := by
    rw [Option.filter_eq_none_iff]
    intro o ho
    simp [hnode o ho]
  have hrun : run = some ((nearer.findSome? fun e => declared? x e.interfaces).getD op) := by
    have hfound := findBy?_ownOperations hc hn hdistinct hd s env x
    rw [TypeDefinition.findSome?_counted hone, List.findSome?_append, List.findSome?_cons, hop,
      ← declared?, hown, Option.none_or] at hfound
    refine hfound.trans ?_
    cases nearer.findSome? fun e => declared? x e.interfaces <;> rfl
  have hslots (slot : CommandSlot) (hslot : nodeStage? x = some slot) :
      (Contributor.own job n).filter (·.slot = slot) =
        (run.bind (Contributor.ofOperation? (some slot) (t.nodeScope n.id))).toList :=
    Contributor.filter_slot (nodup_ownOperations hc hn hd s env) hslot (t.nodeScope n.id)
  cases hhides : nearer.findSome? fun e => declared? x e.interfaces with
  | none =>
    have hall := List.findSome?_eq_none_iff.1 hhides
    rw [hhides] at hrun
    refine ⟨hrun, ⟨fun _ => hall, fun _ => hrun⟩, fun slot hslot => ?_⟩
    rw [if_pos hall, hslots slot hslot, hrun]
    rfl
  | some o =>
    obtain ⟨e, he, ho⟩ := List.exists_of_findSome?_eq_some hhides
    have hunscripted : o.isEffective = false := hnearer e he o ho
    have hsome : ¬∀ e ∈ nearer, declared? x e.interfaces = none := by
      intro hall
      rw [hall e he] at ho
      cases ho
    rw [hhides] at hrun
    refine ⟨hrun, ⟨fun heq => ?_, fun hall => absurd hall hsome⟩, fun slot hslot => ?_⟩
    · obtain rfl : o = op := Option.some.inj (hrun.symm.trans heq)
      rw [hunscripted] at hscript
      cases hscript
    · rw [if_neg hsome, hslots slot hslot, hrun]
      exact congrArg Option.toList (Contributor.ofOperation?_eq_none hunscripted)

/-- The types of a document: a root type with scripts to start and to stop a node, and one derived
from it that declares inputs to stop it and no script. -/
def maskedTypes : TypeCatalog :=
  (TypeCatalog.empty.merge <| .obj [("node_types", .obj [
    ("Root", .obj [("interfaces", .obj [("Standard", .obj [
      ("start", .str "idle.sh"), ("stop", .str "halt.sh")])])]),
    ("App", .obj [("derived_from", .str "Root"), ("interfaces", .obj [("Standard", .obj [
      ("stop", .obj [("inputs", .obj [("GRACE", .str "5")])])])])])])]).2

theorem built_maskedTypes : maskedTypes.Built := .merge .empty rfl

def maskedRoot : TypeDefinition :=
  ⟨"Root", none, none, [⟨"Standard", [⟨"start", some (.ofReference "idle.sh"), []⟩,
    ⟨"stop", some (.ofReference "halt.sh"), []⟩]⟩], ∅, [], []⟩

def maskingApp : TypeDefinition :=
  ⟨"App", none, some "Root", [⟨"Standard", [⟨"stop", none, [("GRACE", .scalar "5")]⟩]⟩], ∅, [], []⟩

theorem derivation_maskedTypes :
    maskedTypes.Derivation [] "App" ([maskingApp] ++ maskedRoot :: []) ["Root"] :=
  TypeCatalog.climb_eq_ok_iff.1 rfl

/-- A declaration of the node without a script hides none: it is started by the script of the root
type. -/
theorem operation_maskedTypes :
    let job := layeredJob maskedTypes "Standard"
    let n := layeredNode "Standard"
    declared? "start" n.interfaces = some ⟨"start", none, []⟩ ∧
    findBy? Operation.name "start" (ownOperations job n) =
      some ⟨"start", some (.ofReference "idle.sh"), []⟩ ∧
    (Contributor.own job n).filter (·.slot = .launch) =
      [⟨.launch, (layeredSite "Standard").nodeScope "web", [], .ofReference "idle.sh"⟩] ∧
    commandOf job n .launch = some (.ofText "idle") := by
  intro job n
  have hone : ∀ e ∈ [maskingApp] ++ maskedRoot :: [],
      OnlyAlias nodeLifecycle "Standard" e.interfaces := by decide +kernel
  have hop : declared? "start" maskedRoot.interfaces =
      some ⟨"start", some (.ofReference "idle.sh"), []⟩ := rfl
  have hnearer : ∀ e ∈ [maskingApp], ∀ o, declared? "start" e.interfaces = some o →
      o.isEffective = false := by
    intro e he o ho
    rw [List.mem_singleton.1 he] at ho
    cases ho
  have hnode : ∀ o, declared? "start" n.interfaces = some o → o.isEffective = false := by
    rintro o ⟨⟩
    rfl
  have hrun := operation_of_unscripted built_maskedTypes (t := layeredSite "Standard")
    (List.mem_singleton_self n) (by decide) derivation_maskedTypes hone hop (by decide +kernel)
    hnearer hnode (.initial ⟨none, none⟩) ⟨maskedTypes.lookup, .empty, job.files⟩
  exact ⟨rfl, hrun.1, hrun.2.2 .launch rfl, by decide +kernel⟩

/-- A declaration of a type without a script hides the script of the type above it: nothing is run
to stop the node. -/
theorem not_operation_maskedTypes :
    let job := layeredJob maskedTypes "Standard"
    let n := layeredNode "Standard"
    maskedTypes.Derivation [] n.nodeType [maskingApp, maskedRoot] ["Root"] ∧
    declared? "stop" maskedRoot.interfaces = some ⟨"stop", some (.ofReference "halt.sh"), []⟩ ∧
    declared? "stop" maskingApp.interfaces = some ⟨"stop", none, [("GRACE", .scalar "5")]⟩ ∧
    declared? "stop" n.interfaces = none ∧
    findBy? Operation.name "stop" (ownOperations job n) =
      some ⟨"stop", none, [("GRACE", .scalar "5")]⟩ ∧
    commandOf job n .stop = some (.ofText "true") := by
  intro job n
  exact ⟨derivation_maskedTypes, rfl, rfl, rfl, by decide +kernel⟩

end Build

end DeployPlan
