import DeployPlan.TypeCatalog
import Mathlib.Data.List.Nodup

/-!
# Definitions that come from documents

An object of a decoded document has one field of each name. So a definition read from a document
declares each attribute, artifact and interface once, and each interface declares an operation once;
this holds of all definitions of a catalog that documents were added to.
-/
namespace DeployPlan

namespace Json

mutual

/-- In all objects of a value the fields have different names. -/
def isDistinct : Json → Bool
  | arr items => allDistinct items
  | obj fields => decide (Entries.names fields).Nodup && fieldsDistinct fields
  | _ => true

def allDistinct : List Json → Bool
  | [] => true
  | v :: vs => v.isDistinct && allDistinct vs

def fieldsDistinct : List (String × Json) → Bool
  | [] => true
  | f :: fs => f.2.isDistinct && fieldsDistinct fs

end

theorem fieldsDistinct_iff (fields : Fields) :
    fieldsDistinct fields = true ↔ ∀ f ∈ fields, f.2.isDistinct = true := by
  induction fields with
  | nil => simp [fieldsDistinct]
  | cons f fields ih => simp [fieldsDistinct, ih]

theorem isDistinct_obj (fields : Fields) : (obj fields).isDistinct = true ↔
    (Entries.names fields).Nodup ∧ ∀ f ∈ fields, f.2.isDistinct = true := by
  simp [isDistinct, fieldsDistinct_iff]

end Json

/-- Taking some entries, under the names they have, keeps names different. -/
theorem Entries.nodup_filterMap {α β : Type} {es : List (String × α)} (h : (names es).Nodup)
    (f : String × α → Option β) :
    (names (es.filterMap fun e => (f e).map (e.1, ·))).Nodup := by
  have hsub : (names (es.filterMap fun e => (f e).map (e.1, ·))).Sublist (names es) := by
    clear h
    induction es with
    | nil => exact List.Sublist.refl []
    | cons e es ih =>
      rw [List.filterMap_cons]
      cases f e with
      | none => exact ih.cons e.1
      | some b => exact ih.cons_cons e.1
  exact h.sublist hsub

namespace Json

variable {v w : Json} {name : String}

theorem isDistinct_of_field? (hv : v.isDistinct = true) (h : v.field? name = some w) :
    w.isDistinct = true := by
  cases v with
  | obj fields => exact ((isDistinct_obj fields).1 hv).2 _ (Entries.mem_of_get? h)
  | _ => cases h

/-- The fields of a map have different names and distinct values. -/
theorem isDistinct_of_asObject? {fields : Fields} (hv : v.isDistinct = true)
    (h : v.asObject? = some fields) :
    (Entries.names fields).Nodup ∧ ∀ f ∈ fields, f.2.isDistinct = true := by
  cases v with
  | obj =>
    cases h
    exact (isDistinct_obj fields).1 hv
  | _ => cases h

theorem isDistinct_of_field?_asObject? {fields : Fields} (hv : v.isDistinct = true)
    (h : (v.field? name).bind asObject? = some fields) :
    (Entries.names fields).Nodup ∧ ∀ f ∈ fields, f.2.isDistinct = true := by
  obtain ⟨w, hw, hfields⟩ := Option.bind_eq_some_iff.1 h
  exact isDistinct_of_asObject? (isDistinct_of_field? hv hw) hfields

end Json

/-- An interface declares each operation once. -/
def Interface.Distinct (i : Interface) : Prop := (i.operations.map (·.name)).Nodup

instance (i : Interface) : Decidable i.Distinct := inferInstanceAs (Decidable (List.Nodup _))

structure TypeDefinition.Distinct (d : TypeDefinition) : Prop where
  interfaces : (d.interfaces.map (·.name)).Nodup
  operations : ∀ i ∈ d.interfaces, i.Distinct
  attributes : (Entries.names d.attributes).Nodup
  artifacts : (Entries.names d.artifacts).Nodup

theorem Topology.name_readOperation (name : String) (v : Json) :
    (readOperation name v).name = name := by
  cases v <;> rfl

theorem Topology.readOperations_nodup {body : Json} (h : body.isDistinct = true) :
    ((readOperations body).map (·.name)).Nodup := by
  have hfields : (Entries.names
      ((((body.field? "operations").bind Json.asObject?).or body.asObject?).getD [])).Nodup := by
    cases hf : ((body.field? "operations").bind Json.asObject?).or body.asObject? with
    | none => exact List.nodup_nil
    | some fields =>
      rcases Option.or_eq_some_iff.1 hf with hops | ⟨-, hbody⟩
      · exact (Json.isDistinct_of_field?_asObject? h hops).1
      · exact (Json.isDistinct_of_asObject? h hbody).1
  rw [readOperations, List.map_map]
  have hname : (·.name) ∘ (fun f : String × Json => readOperation f.1 f.2) = Prod.fst :=
    funext fun f => name_readOperation f.1 f.2
  rw [hname]
  exact hfields.sublist (List.filter_sublist.map Prod.fst)

theorem Topology.readInterfaces_distinct {body : Json} (h : body.isDistinct = true) :
    ((readInterfaces (body.field? "interfaces")).map (·.name)).Nodup ∧
      ∀ i ∈ readInterfaces (body.field? "interfaces"), i.Distinct := by
  unfold readInterfaces
  cases hf : (body.field? "interfaces").bind Json.asObject? with
  | none => simp
  | some fields =>
    obtain ⟨hnames, hbodies⟩ := Json.isDistinct_of_field?_asObject? h hf
    refine ⟨?_, fun i hi => ?_⟩
    · rw [List.map_map]
      exact hnames
    · obtain ⟨f, hmem, rfl⟩ := List.mem_map.1 hi
      exact readOperations_nodup (hbodies f hmem)

theorem Topology.readArtifacts_nodup {body : Json} (h : body.isDistinct = true) :
    (Entries.names (readArtifacts (body.field? "artifacts"))).Nodup := by
  unfold readArtifacts
  cases hf : (body.field? "artifacts").bind Json.asObject? with
  | none => exact List.nodup_nil
  | some fields =>
    exact Entries.nodup_filterMap (Json.isDistinct_of_field?_asObject? h hf).1
      fun f => readArtifact? f.2

namespace TypeCatalog

theorem mapField_nodup {body : Json} (h : body.isDistinct = true) (name : String) :
    (Entries.names (mapField name body)).Nodup := by
  unfold mapField
  cases hf : (body.field? name).bind Json.asObject? with
  | none => exact List.nodup_nil
  | some fields => exact (Json.isDistinct_of_field?_asObject? h hf).1

/-- What the body of a type says is said once. -/
theorem readDefinition_distinct (archive : Option Coordinates) (name : String) {body : Json}
    (h : body.isDistinct = true) : (readDefinition archive name body).Distinct where
  interfaces := (Topology.readInterfaces_distinct h).1
  operations := (Topology.readInterfaces_distinct h).2
  attributes := by
    rw [readDefinition, Entries.names, List.map_map]
    exact mapField_nodup h "attributes"
  artifacts := Topology.readArtifacts_nodup h

theorem readSection_distinct {root : Fields} (h : (Json.obj root).isDistinct = true)
    {sectionName : String} {ds : List TypeDefinition}
    (hds : readSection root sectionName = .ok ds) :
    ∀ d ∈ ds, d.Distinct := by
  unfold readSection at hds
  split at hds
  · cases hds
    simp
  · next types hget =>
    have htypes : (Json.obj types).isDistinct = true :=
      ((Json.isDistinct_obj root).1 h).2 _ (Entries.mem_of_get? hget)
    cases hds
    intro d hd
    obtain ⟨entry, hmem, rfl⟩ := List.mem_map.1 hd
    exact readDefinition_distinct _ _ (((Json.isDistinct_obj types).1 htypes).2 _ hmem)
  · cases hds

/-- A catalog that documents were added to one after the other, those that were refused included. -/
inductive Built : TypeCatalog → Prop where
  | empty : Built TypeCatalog.empty
  | merge {c : TypeCatalog} {doc : Json} (h : Built c) (hdoc : doc.isDistinct = true) :
    Built (c.merge doc).2

theorem mergeSections_distinct {c : TypeCatalog} (hc : ∀ d ∈ c.definitions, d.Distinct)
    {root : Fields} (h : (Json.obj root).isDistinct = true) (names : List String) :
    ∀ d ∈ (c.mergeSections root names).2.definitions, d.Distinct := by
  induction names generalizing c with
  | nil => exact hc
  | cons sectionName rest ih =>
    rw [mergeSections]
    split
    · next ds hds =>
      refine ih fun d hd => ?_
      rcases List.mem_append.1 hd with hd | hd
      · exact hc d hd
      · exact readSection_distinct h hds d hd
    · exact hc

/-- All definitions of a catalog built from documents declare each member once. -/
theorem Built.distinct {c : TypeCatalog} (h : c.Built) : ∀ d ∈ c.definitions, d.Distinct := by
  induction h with
  | empty =>
    intro d hd
    cases hd
  | @merge c doc _ hdoc ih =>
    cases doc with
    | obj root => exact mergeSections_distinct ih hdoc sections
    | _ => exact ih

end TypeCatalog

end DeployPlan
