import DeployPlan.Proofs.TypeCatalog.Aliases

/-!
# Operations of an instance over those of its type

The operations of an instance are an ordered overlay of those of its type: the type's names come
first and then the new ones, each once, and under a name of the type its own operation stands unless
the instance names a script.
-/
namespace DeployPlan

variable {typeLevel own : List Interface}

/-- Names stand in the order of the type, and then in the order of the instance. -/
theorem names_mergedOperations (aliases : List String) (hown : ∀ i ∈ own, i.Distinct) :
    (mergedOperations typeLevel own aliases).map (·.name) =
      (operationsUnder aliases typeLevel).map (·.name) ++
        ((operationsUnder aliases own).map (·.name)).filter
          (· ∉ (operationsUnder aliases typeLevel).map (·.name)) := by
  rw [← foldl_addName_of_nodup (nodup_operationsUnder hown aliases), mergedOperations]
  generalize operationsUnder aliases typeLevel = base
  generalize operationsUnder aliases own = later
  induction later generalizing base with
  | nil => rfl
  | cons op later ih =>
    rw [List.foldl_cons, ih, names_overlayOperation, List.map_cons, List.foldl_cons, addName]

/-- An operation is merged when it is one of the instance that the type lacks or that names a
script, or one of the type over which the instance lays none that does. -/
theorem mem_mergedOperations_iff (htype : ∀ i ∈ typeLevel, i.Distinct)
    (hown : ∀ i ∈ own, i.Distinct) (aliases : List String) (op : Operation) :
    op ∈ mergedOperations typeLevel own aliases ↔
      (op ∈ operationsUnder aliases own ∧
        (op.name ∉ (operationsUnder aliases typeLevel).map (·.name) ∨ op.isEffective = true)) ∨
      (op ∈ operationsUnder aliases typeLevel ∧
        ∀ o ∈ operationsUnder aliases own, o.name = op.name → o.isEffective = false) := by
  have hbase := nodup_operationsUnder htype aliases
  have hlater := nodup_operationsUnder hown aliases
  have hfind := findBy?_mergedOperations hown typeLevel aliases op.name
  have hmerged := nodup_mergedOperations hbase own
  generalize mergedOperations typeLevel own aliases = merged at hfind hmerged ⊢
  generalize operationsUnder aliases typeLevel = base at hbase hfind ⊢
  generalize operationsUnder aliases own = later at hlater hfind ⊢
  have hmem (ops : List Operation) (h : (ops.map (·.name)).Nodup) :
      op ∈ ops ↔ findBy? Operation.name op.name ops = some op := by
    rw [findBy?_eq_some_iff h, and_iff_left rfl]
  have hunscripted : (∀ o ∈ later, o.name = op.name → o.isEffective = false) ↔
      ∀ o, findBy? Operation.name op.name later = some o → o.isEffective = false := by
    simp only [findBy?_eq_some_iff hlater, and_imp]
  rw [hmem merged hmerged, hmem base hbase, hmem later hlater, hunscripted, ← findBy?_eq_none_iff,
    hfind]
  -- What is merged under the name depends on what either side has under it.
  cases findBy? Operation.name op.name later with
  | none => simp
  | some o =>
    cases ho : o.isEffective with
    | true =>
      have hkept : o = op → op.isEffective = true := fun h => h ▸ ho
      simpa [Option.filter, ho] using fun h => .inr (hkept h)
    | false =>
      cases findBy? Operation.name op.name base with
      | none => simp [Option.filter, ho]
      | some b =>
        have hdropped : o = op → op.isEffective = true → b = op := by
          rintro rfl heffective
          rw [ho] at heffective
          cases heffective
        simpa [Option.filter, ho] using hdropped

/-- For all interfaces that name each of their operations once, and all aliases, what is merged are
the operations of the type's interface and then those of the instance's that the type lacks, each
name once. Under a name stands the whole operation of the instance when the type has none or the
instance names a script, and else the whole operation of the type. -/
theorem mergedOperations_overlay (htype : ∀ i ∈ typeLevel, i.Distinct)
    (hown : ∀ i ∈ own, i.Distinct) (aliases : List String) :
    let base := operationsUnder aliases typeLevel
    let later := operationsUnder aliases own
    let merged := mergedOperations typeLevel own aliases
    merged.map (·.name) =
      base.map (·.name) ++ (later.map (·.name)).filter (· ∉ base.map (·.name)) ∧
    (merged.map (·.name)).Nodup ∧
    ∀ op, op ∈ merged ↔
      (op ∈ later ∧ (op.name ∉ base.map (·.name) ∨ op.isEffective = true)) ∨
      (op ∈ base ∧ ∀ o ∈ later, o.name = op.name → o.isEffective = false) := by
  have hbase := nodup_operationsUnder htype aliases
  exact ⟨names_mergedOperations aliases hown, nodup_mergedOperations hbase own,
    mem_mergedOperations_iff htype hown aliases⟩

/-- A type that creates, starts and stops its nodes. -/
def servedType : List Interface :=
  [⟨"Standard", [⟨"create", some (.ofReference "unpack.sh"), []⟩,
    ⟨"start", some (.ofReference "serve.sh"), [("PORT", .scalar "80")]⟩, ⟨"stop", none, []⟩]⟩]

/-- A node that changes an input of the start and names no script for it, has a script to stop, and
configures itself. -/
def servedNode : List Interface :=
  [⟨"standard", [⟨"configure", none, []⟩, ⟨"stop", some (.ofReference "halt.sh"), []⟩,
    ⟨"start", some (.ofReference " "), [("PORT", .scalar "8080")]⟩]⟩]

/-- The node is started by its type, with the input of the type, and stopped by its own script. -/
theorem mergedOperations_servedNode :
    (∀ i ∈ servedType, i.Distinct) ∧ (∀ i ∈ servedNode, i.Distinct) ∧
    (mergedOperations servedType servedNode nodeLifecycle).map (·.name) =
      ["create", "start", "stop", "configure"] ∧
    ⟨"start", some (.ofReference "serve.sh"), [("PORT", .scalar "80")]⟩ ∈
      mergedOperations servedType servedNode nodeLifecycle ∧
    ⟨"stop", some (.ofReference "halt.sh"), []⟩ ∈
      mergedOperations servedType servedNode nodeLifecycle := by
  have htype : ∀ i ∈ servedType, i.Distinct := by decide
  have hown : ∀ i ∈ servedNode, i.Distinct := by decide
  obtain ⟨hnames, -, hmem⟩ := mergedOperations_overlay htype hown nodeLifecycle
  refine ⟨htype, hown, hnames, (hmem _).2 (.inr ?_), (hmem _).2 (.inl ?_)⟩
  · decide +kernel
  · decide +kernel

end DeployPlan
