import DeployPlan.Proofs.Build.NodeFaults

/-!
# Injected run-time values

A value that is left to run time is written into the config as the object that stands for it. A key
that held no map then holds exactly that object. In a map the fields of the object come on top of
those that are there, so what the map held under other names stays beside them.
-/
namespace DeployPlan

/-- The fields of the object that something left to run time is written as. -/
def Deferred.fields : Deferred → Fields
  | gap a => ("deferred", .str "attribute") :: a.fields
  | format f => [("deferred", .str "format"), ("parts", .arr (f.parts.map (·.json)))]

/-- Whether one attribute is left to run time, and not a whole format text. -/
def Deferred.isGap : Deferred → Bool
  | gap _ => true
  | format _ => false

theorem Deferred.json_eq (d : Deferred) : d.json = .obj d.fields := by
  cases d <;> rfl

theorem Deferred.nodup_names_fields (d : Deferred) : (Entries.names d.fields).Nodup := by
  cases d with
  | gap a => simp [fields, AttributeRef.fields, Entries.names]
  | format f => simp [fields, Entries.names]

/-- The object of an attribute has a field that the one of a format text has not, and the other way
around. -/
theorem Deferred.names_fields_subset_iff {d e : Deferred} :
    Entries.names e.fields ⊆ Entries.names d.fields ↔ e.isGap = d.isGap := by
  cases d <;> cases e <;> simp [fields, AttributeRef.fields, Entries.names, isGap]

namespace Entries

/-- Fields that are put on top are all fields there are exactly when there were none of other
names. -/
theorem get?_putAll_eq_iff {α : Type} {base later : List (String × α)}
    (h : (names later).Nodup) :
    (∀ key, get? key (putAll base later) = get? key later) ↔ names base ⊆ names later := by
  constructor
  · intro hsame key hkey
    by_contra hnew
    have hbase := hsame key
    rw [get?_putAll h, (get?_eq_none_iff key later).2 hnew, Option.none_or] at hbase
    exact (get?_eq_none_iff key base).1 hbase hkey
  · intro hsub key
    rw [get?_putAll h]
    by_cases hkey : key ∈ names later
    · obtain ⟨v, hv⟩ := Option.ne_none_iff_exists'.1
        (mt (get?_eq_none_iff key later).1 (not_not.2 hkey))
      rw [hv, Option.some_or]
    · rw [(get?_eq_none_iff key base).2 fun hmem => hkey (hsub hmem), Option.or_none]

end Entries

namespace PlanValue

/-- A plan value is written as the object of something left to run time, in whatever order its
fields are. -/
def Writes (v : PlanValue) (d : Deferred) : Prop :=
  ∃ fields, v.json = .obj fields ∧ ∀ key, Entries.get? key fields = Entries.get? key d.fields

/-- A value joined to the one that is there, if there is one. -/
def joinTo (v : PlanValue) (old : Option PlanValue) : PlanValue := (old.map (·.join v)).getD v

/-- Something left to run time replaces whatever is no map. -/
theorem joinTo_of_not_map {old : Option PlanValue} {d : Deferred}
    (h : ∀ fields, old ≠ some (.literal (.obj fields))) :
    joinTo (.literal d.json) old = .literal d.json := by
  rw [d.json_eq]
  rcases old with _ | (v | e)
  · rfl
  · cases v with
    | obj fields => exact absurd rfl (h fields)
    | _ => rfl
  · rfl

/-- In a map the object of something left to run time comes on top of the fields that are there. -/
theorem joinTo_map (fields : Fields) (d : Deferred) :
    joinTo (.literal d.json) (some (.literal (.obj fields))) =
      .literal (.obj (Entries.putAll fields d.fields)) := by
  rw [d.json_eq]
  rfl

/-- What something left to run time makes with an earlier value is its object exactly when the
earlier value is no map with a field of another name. -/
theorem writes_joinTo_iff {old : Option PlanValue} {d : Deferred} :
    (joinTo (.literal d.json) old).Writes d ↔ ∀ fields, old = some (.literal (.obj fields)) →
        Entries.names fields ⊆ Entries.names d.fields := by
  by_cases hmap : ∃ fields, old = some (.literal (.obj fields))
  · obtain ⟨fields, rfl⟩ := hmap
    have hall : (joinTo (.literal d.json) (some (.literal (.obj fields)))).Writes d ↔
        ∀ key, Entries.get? key (Entries.putAll fields d.fields) = Entries.get? key d.fields := by
      rw [joinTo_map]
      constructor
      · rintro ⟨_, ⟨⟩, hsame⟩
        exact hsame
      · exact fun hsame => ⟨_, rfl, hsame⟩
    rw [hall, Entries.get?_putAll_eq_iff d.nodup_names_fields]
    constructor
    · rintro hsub _ ⟨⟩
      exact hsub
    · exact fun hsub => hsub fields rfl
  · have hnot : ∀ fields, old ≠ some (.literal (.obj fields)) := fun fields h => hmap ⟨fields, h⟩
    rw [joinTo_of_not_map hnot]
    exact ⟨fun _ fields h => absurd h (hnot fields), fun _ => ⟨d.fields, d.json_eq, fun _ => rfl⟩⟩

end PlanValue

namespace NodePlan

/-- The config entry of a key, in the map that the key belongs to. -/
def configAt? (p : NodePlan) (key : String) : Option PlanValue :=
  if p.isTyped key then p.config[key]? else p.passthrough[key]?

/-- A value that is put is joined to the entry that is there, and changes no other. -/
theorem configAt?_putConfig (p : NodePlan) (k : String) (v : PlanValue) (key : String) :
    (p.putConfig k v).configAt? key =
      if k = key then some (v.joinTo (p.configAt? k)) else p.configAt? key := by
  rw [configAt?, isTyped_putConfig, PlanValue.joinTo]
  by_cases hk : k = key
  · subst hk
    rw [if_pos rfl, configAt?]
    by_cases htyped : p.isTyped k = true
    · simp only [htyped, if_true, putConfig, getElem?_joinInto]
    · simp only [htyped, putConfig, getElem?_joinInto, if_true, Bool.false_eq_true, if_false]
  · rw [if_neg hk, configAt?, putConfig]
    split
    · split <;> simp [getElem?_joinInto, hk]
    · split <;> simp [getElem?_joinInto, hk]

end NodePlan

namespace Build

variable {job : Job} {n : NodeTemplate} {r : Relationship} {p p₁ : NodePlan} {q q₁ : Pass}
  {before after : List Relationship} {d : Deferred}

/-- A plan with what some relationships of its node write. -/
def putWritten (job : Job) (n : NodeTemplate) (p : NodePlan) (rs : List Relationship) :
    Build NodePlan := do
  let entries ← rs.mapM (injectedBy job n)
  return p.putEntries entries

/-- A node's relationships write what those of them do that write into the config. -/
theorem putInjected_eq : putInjected job n p = putWritten job n p (injecting job n) := rfl

theorem putWritten_append (rs ts : List Relationship) : putWritten job n p (rs ++ ts) =
    putWritten job n p rs >>= fun p => putWritten job n p ts := by
  simp only [putWritten, List.mapM_append, bind_assoc, pure_bind, NodePlan.putEntries,
    List.foldl_append]

theorem putWritten_singleton : putWritten job n p [r] =
    injectedBy job n r >>= fun entry => pure (p.putConfig entry.1 entry.2) := by
  simp only [putWritten, List.mapM_cons, List.mapM_nil, bind_assoc, pure_bind, NodePlan.putEntries,
    List.foldl_cons, List.foldl_nil]

/-- What a relationship that writes into the config is asked for: where, under which name in there,
and what. -/
def edgeReading (job : Job) (n : NodeTemplate) (r : Relationship) :
    Eval (Resolution × Resolution × Resolution) := do
  let scope := job.scene.topology.relationshipScope n.id r
  let name ← edgeProperty job scope r "prop.name"
  let collection ← edgeProperty job scope r "prop.collection"
  let value ← edgeProperty job scope r "prop.value"
  return (name, collection, value)

/-- What has been read stands for the same at the end. -/
theorem edgeReading_run (hq : q.resolving = []) {last : Pass}
    (hlast : (edgeReading job n r q).2 = last) :
    last.resolving = [] ∧ (edgeReading job n r q).1 =
      (job.edgeOutcome last n r "prop.name", job.edgeOutcome last n r "prop.collection",
        job.edgeOutcome last n r "prop.value") := by
  have hvisits (name : String) : Eval.Visits job.scene [] _ _ _ :=
    visits_edgeProperty job (job.scene.topology.relationshipScope n.id r) r name
  have hall := (hvisits "prop.name").bind fun name => (hvisits "prop.collection").bind
    fun collection => (hvisits "prop.value").map fun value => (name, collection, value)
  obtain ⟨hstack, hmemo, hval⟩ := hall.run q hq
  change (edgeReading job n r q).2.resolving = [] at hstack
  change (edgeReading job n r q).2.memo = _ at hmemo
  change (edgeReading job n r q).1 = _ at hval
  rw [hlast] at hstack hmemo
  rw [← hmemo] at hval
  have hkept {name : String} {keys : List PropertyKey}
      {value : (PropertyKey → Resolution) → Resolution}
      (h : Eval.Visits job.scene [] keys value (edgeProperty job
        (job.scene.topology.relationshipScope n.id r) r name))
      (hkeys : ∀ k ∈ keys, job.scene.Done [] last.memo k) :
      value (Memo.answer last.memo) = job.edgeOutcome last n r name :=
    (h.eq_of_done hstack hkeys).symm
  have hdone {k : PropertyKey} (hk : k ∈ _) : job.scene.Done [] last.memo k :=
    hmemo ▸ Scene.done_visitAll hk
  refine ⟨hstack, hval.trans ?_⟩
  rw [← hkept (hvisits "prop.name") fun k hk => hdone (List.mem_append_left _ hk),
    ← hkept (hvisits "prop.collection") fun k hk =>
      hdone (List.mem_append_right _ (List.mem_append_left _ hk)),
    ← hkept (hvisits "prop.value") fun k hk =>
      hdone (List.mem_append_right _ (List.mem_append_right _ hk))]

/-- What a relationship writes, given what it has been read to write. -/
def entryOf (n : NodeTemplate) (r : Relationship) :
    Option (String × PlanValue) → Except Failure (String × PlanValue)
  | some entry => .ok entry
  | none => .error (.compile (.invalidRelationship n.id r.id
      "prop.name or prop.collection must be set"))

theorem injectedBy_eq : injectedBy job n r =
    (liftM (edgeReading job n r) : Build (Resolution × Resolution × Resolution)) >>= fun read =>
      ofExcept (entryOf n r (injection? read.1.literalText read.2.1.literalText
        ((PlanValue.ofResolution? read.2.2).getD (.ofText "")).json)) := by
  have hentry (found : Option (String × PlanValue)) : (match found with
      | some entry => pure entry
      | none => fail (.compile (.invalidRelationship n.id r.id
          "prop.name or prop.collection must be set")) : Build (String × PlanValue)) =
      ofExcept (entryOf n r found) := by
    cases found <;> rfl
  simp only [← hentry]
  funext q
  rfl

/-- A relationship writes what it is read to write in the pass at its end. -/
theorem injectedBy_run (hq : q.resolving = []) {last : Pass}
    (hlast : (injectedBy job n r q).2 = last) : last.resolving = [] ∧
      injectedBy job n r q = (entryOf n r (job.injected? last n r), last) := by
  rw [injectedBy_eq, bind_of_ok (lift_run _ q), ofExcept_run] at hlast ⊢
  obtain ⟨hstack, hval⟩ := edgeReading_run hq hlast
  rw [hlast, hval, Job.injected?]
  exact ⟨hstack, rfl⟩

theorem resting_of_putWritten {rs : List Relationship} (hq : q.resolving = [])
    (h : putWritten job n p rs q = (.ok p₁, q₁)) : q₁.resolving = [] := by
  obtain ⟨entries, q₂, hentries, h⟩ := bind_eq_ok h
  cases h
  clear h
  induction rs generalizing q entries with
  | nil =>
    cases hentries
    exact hq
  | cons r rs ih =>
    rw [List.mapM_cons] at hentries
    obtain ⟨entry, q₃, hentry, hentries⟩ := bind_eq_ok hentries
    obtain ⟨rest, q₄, hrest, hentries⟩ := bind_eq_ok hentries
    cases hentries
    exact ih (injectedBy_run hq (congrArg Prod.snd hentry)).1 rest hrest

/-- When a relationship writes something left to run time under a name, the key of that name gets
the object of it, joined to the entry that is there after the relationships before, and no other key
gets anything. The new entry is exactly that object if the old one was no map; if it was one, it
keeps what it had under names that the object has not. So the entry is the object exactly when the
old one was no map with a field of another name, and over what was left to run time before exactly
when that is of the same kind. -/
theorem entry_of_injected (hq : q.resolving = []) (hr : injecting job n = before ++ r :: after)
    (hbefore : putWritten job n p before q = (.ok p₁, q₁)) {last : Pass}
    (hlast : (injectedBy job n r q₁).2 = last) {name : String}
    (hname : job.edgeText last n r "prop.name" = name) (hnamed : Text.isBlank name = false)
    (hcollection : Text.isBlank (job.edgeText last n r "prop.collection") = true)
    (hvalue : job.edgeOutcome last n r "prop.value" = .deferred d) :
    ∃ p₂ v, putWritten job n p (before ++ [r]) q = (.ok p₂, last) ∧
      putInjected job n p q = putWritten job n p₂ after last ∧ p₂.configAt? name = some v ∧
      (∀ key, key ≠ name → p₂.configAt? key = p₁.configAt? key) ∧
      ((∀ fields, p₁.configAt? name ≠ some (.literal (.obj fields))) → v = .literal d.json) ∧
      (∀ fields, p₁.configAt? name = some (.literal (.obj fields)) → ∃ joined,
        v = .literal (.obj joined) ∧ ∀ key, Entries.get? key joined =
          (Entries.get? key d.fields).or (Entries.get? key fields)) ∧
      (v.Writes d ↔ ∀ fields, p₁.configAt? name = some (.literal (.obj fields)) →
        Entries.names fields ⊆ Entries.names d.fields) ∧
      ∀ e : Deferred, p₁.configAt? name = some (.literal e.json) →
        (v.Writes d ↔ e.isGap = d.isGap) := by
  obtain ⟨-, hrun⟩ := injectedBy_run (resting_of_putWritten hq hbefore) hlast
  have hentry : job.injected? last n r = some (name, .literal d.json) := by
    rw [Job.edgeText] at hname hcollection
    rw [Job.injected?, Job.edgeOutcome, Job.edgeOutcome, hname, injection?, if_pos hcollection,
      if_neg (by rw [hnamed]; exact Bool.false_ne_true), hvalue]
    rfl
  rw [hentry] at hrun
  have hstep : putWritten job n p (before ++ [r]) q =
      (.ok (p₁.putConfig name (.literal d.json)), last) := by
    rw [putWritten_append, bind_of_ok hbefore, putWritten_singleton, bind_of_ok hrun]
    rfl
  have hrest : putInjected job n p q =
      putWritten job n (p₁.putConfig name (.literal d.json)) after last := by
    rw [putInjected_eq, hr, List.append_cons, putWritten_append, bind_of_ok hstep]
  have hnew := NodePlan.configAt?_putConfig p₁ name (.literal d.json) name
  rw [if_pos rfl] at hnew
  refine ⟨_, _, hstep, hrest, hnew, fun key hkey => ?_, PlanValue.joinTo_of_not_map,
    fun fields hold => ?_, PlanValue.writes_joinTo_iff, fun e hold => ?_⟩
  · rw [NodePlan.configAt?_putConfig, if_neg (Ne.symm hkey)]
  · rw [hold]
    exact ⟨_, PlanValue.joinTo_map fields d, fun key =>
      Entries.get?_putAll d.nodup_names_fields key fields⟩
  · rw [PlanValue.writes_joinTo_iff, hold, e.json_eq, ← Deferred.names_fields_subset_iff]
    constructor
    · exact fun h => h e.fields rfl
    · rintro h _ ⟨⟩
      exact h

def addressLink : Relationship :=
  ⟨"link", "link", "db", injectProperty, .ofEntries [("prop.name", .scalar "store"),
    ("prop.value", .call ⟨"get_attribute", ["TARGET", "ip"]⟩)], []⟩

/-- An application with a property of the name under which the address is written. -/
def client (store : PropertyValue) : NodeTemplate :=
  ⟨"web", "App", none, none, .ofEntries [("store", store)], [], [addressLink], [], []⟩

/-- The job of a topology of the application and a database. -/
def clientJob (store : PropertyValue) : Job where
  scene := ⟨⟨"site", [client store, ⟨"db", "Db", none, none, ∅, [], [], [], []⟩], [], [], none⟩, []⟩
  registry := .empty
  files := FileTree.emptyAt []
  settings := .initial ⟨none, none⟩

/-- The plan of the application with its property, and the pass that has evaluated it. -/
def clientPlan (store : PropertyValue) : NodePlan × Pass :=
  putProperties (clientJob store) (client store) (.start .scriptedProcess .empty)
    (.start (.start .error false))

def clientPass (store : PropertyValue) : Pass :=
  (injectedBy (clientJob store) (client store) addressLink (clientPlan store).2).2

def address : Deferred := .gap ⟨"db", "ip"⟩

def unshared : PropertyValue := .scalar "local"

/-- The address replaces a text. -/
theorem entry_client : ∃ p',
    putInjected (clientJob unshared) (client unshared) (clientPlan unshared).1
      (clientPlan unshared).2 = (.ok p', clientPass unshared) ∧
    (clientPlan unshared).1.configAt? "store" = some (.ofText "local") ∧
    p'.configAt? "store" = some (.literal address.json) := by
  have hbefore : (clientPlan unshared).1.configAt? "store" = some (.ofText "local") := by
    decide +kernel
  have hq : (clientPlan unshared).2.resolving = [] := by decide +kernel
  have hr : injecting (clientJob unshared) (client unshared) = [] ++ addressLink :: [] := by
    decide +kernel
  have hnone : putWritten (clientJob unshared) (client unshared) (clientPlan unshared).1 []
      (clientPlan unshared).2 = (.ok (clientPlan unshared).1, (clientPlan unshared).2) := rfl
  have hlast : (injectedBy (clientJob unshared) (client unshared) addressLink
      (clientPlan unshared).2).2 = clientPass unshared := rfl
  have hname : (clientJob unshared).edgeText (clientPass unshared) (client unshared) addressLink
      "prop.name" = "store" := by
    decide +kernel
  have hcollection : Text.isBlank ((clientJob unshared).edgeText (clientPass unshared)
      (client unshared) addressLink "prop.collection") = true := by
    decide +kernel
  have hvalue : (clientJob unshared).edgeOutcome (clientPass unshared) (client unshared)
      addressLink "prop.value" = .deferred address := by
    decide +kernel
  obtain ⟨p', v, -, hrest, hv, -, hreplaced, -⟩ := entry_of_injected hq hr hnone hlast hname rfl
    hcollection hvalue
  refine ⟨p', hrest, hbefore, ?_⟩
  rw [hv, hreplaced fun fields h => ?_]
  rw [hbefore] at h
  cases h

def cached : PropertyValue := .complex [("mode", .str "cached")]

/-- The address is mixed with a map. -/
theorem not_writes_client : injecting (clientJob cached) (client cached) = [addressLink] ∧
    (clientJob cached).edgeText (clientPass cached) (client cached) addressLink "prop.name" =
      "store" ∧
    Text.isBlank ((clientJob cached).edgeText (clientPass cached) (client cached) addressLink
      "prop.collection") = true ∧
    (clientJob cached).edgeOutcome (clientPass cached) (client cached) addressLink "prop.value" =
      .deferred address ∧
    ∃ p' v, putInjected (clientJob cached) (client cached) (clientPlan cached).1
        (clientPlan cached).2 = (.ok p', clientPass cached) ∧
      p'.configAt? "store" = some v ∧ ¬ v.Writes address ∧
      v = .literal (.obj [("mode", .str "cached"), ("deferred", .str "attribute"),
        ("node", .str "db"), ("attribute", .str "ip")]) := by
  refine ⟨by decide +kernel, by decide +kernel, by decide +kernel, by decide +kernel, ?_⟩
  have hentry : ((putInjected (clientJob cached) (client cached) (clientPlan cached).1
      (clientPlan cached).2).1.toOption.bind (·.configAt? "store")) =
        some (.literal (.obj [("mode", .str "cached"), ("deferred", .str "attribute"),
          ("node", .str "db"), ("attribute", .str "ip")])) := by
    decide +kernel
  have hpass : (putInjected (clientJob cached) (client cached) (clientPlan cached).1
      (clientPlan cached).2).2 = clientPass cached := by
    decide +kernel
  obtain ⟨p', hp', hv⟩ := Option.bind_eq_some_iff.1 hentry
  refine ⟨p', _, Prod.ext (eq_ok_of_toOption hp') hpass, hv, ?_, rfl⟩
  rintro ⟨_, ⟨⟩, hsame⟩
  exact absurd (hsame "mode") (by decide)

end Build

end DeployPlan
