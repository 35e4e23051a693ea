import DeployPlan.Proofs.TypeCatalog.Derivation
import DeployPlan.Sources

/-!
# Documents that a catalog refuses

The sections of a type document are added in turn, so a document whose relationship types are no map
is refused when its node types are in the catalog already. These stay. The catalog then answers as
before exactly when it knew all of them and looks each of them up as before; a type from which the
chain of parents meets none of them is looked up as before in any case.
-/
namespace DeployPlan

namespace TypeCatalog

variable {c c' : TypeCatalog} {dependencies : List Coordinates} {name parent : String}
  {d : TypeDefinition} {ds left : List TypeDefinition} {parents seen : List String}

/-- One catalog answers everything that another one does in the same way. -/
structure AnswersAs (c c' : TypeCatalog) : Prop where
  isEmpty : c.isEmpty = c'.isEmpty
  contains : ∀ name, c.contains name = c'.contains name
  lookup : ∀ name dependencies, c.lookup name dependencies = c'.lookup name dependencies

/-- A catalog refuses a document, given as it is or in a file that can be read and decoded, and is
`c'` afterwards. -/
inductive Refuses (c : TypeCatalog) (doc : Json) (c' : TypeCatalog) : Prop where
  | merge {f : Failure} (h : c.merge doc = (.error f, c')) : Refuses c doc c'
  | load {t : FileTree} {p : Path} {text : String} {f : Failure} (htext : t.readText p = .ok text)
      (hdoc : Yaml.read? text = some doc) (h : c.load t p = (.error f, c')) : Refuses c doc c'

/-- A document whose node types can be read, while its relationship types are no map. -/
def RefusedHalfway (doc : Json) : Prop :=
  ∃ root types v, doc = .obj root ∧ Entries.get? "node_types" root = some (.obj types) ∧
    types ≠ [] ∧ Entries.get? "relationship_types" root = some v ∧ v.asObject? = none

/-- What a document that is refused has brought before: the definitions of its node types, when its
relationship types are no map. -/
def leftBy : Json → List TypeDefinition
  | .obj root =>
    match readSection root "node_types", readSection root "relationship_types" with
    | .ok ds, .error _ => ds
    | _, _ => []
  | _ => []

/-- The parent that the definition of a type names, if it has a definition that names one. -/
def parentOf? (c : TypeCatalog) (dependencies : List Coordinates) (name : String) :
    Option String :=
  (c.select? dependencies name).bind (·.parent)

/-- The profile that definitions make of a type, the one of the type itself being the first. -/
def profileAlong (name : String) (ds : List TypeDefinition) (parents : List String) : TypeProfile :=
  ds.reverse.foldl overlay { TypeProfile.bare name with derivedFrom := parents }

theorem readSection_eq_error {root : Fields} {sectionName : String} {f : Failure}
    (h : readSection root sectionName = .error f) :
    ∃ v, Entries.get? sectionName root = some v ∧ v.asObject? = none := by
  unfold readSection at h
  split at h
  · cases h
  · cases h
  · next v hv hget =>
    refine ⟨v, hget, ?_⟩
    cases v with
    | obj fields => exact absurd rfl (hv fields)
    | _ => rfl

theorem readSection_of_asObject? {root : Fields} {sectionName : String} {v : Json}
    (hget : Entries.get? sectionName root = some v) (hv : v.asObject? = none) :
    readSection root sectionName = .error (.plain s!"{sectionName} must be a map") := by
  cases v with
  | obj fields => cases hv
  | _ => simp only [readSection, hget]

/-- A document leaves something behind exactly when it is refused halfway. -/
theorem leftBy_ne_nil_iff (doc : Json) : leftBy doc ≠ [] ↔ RefusedHalfway doc := by
  constructor
  · intro h
    unfold leftBy at h
    split at h
    · next root =>
      split at h
      · next ds f hnodes hrelationships =>
        obtain ⟨v, hv, hmap⟩ := readSection_eq_error hrelationships
        unfold readSection at hnodes
        split at hnodes
        · cases hnodes
          exact absurd rfl h
        · next types htypes =>
          cases hnodes
          refine ⟨root, types, v, rfl, htypes, ?_, hv, hmap⟩
          rintro rfl
          exact h rfl
        · cases hnodes
      · exact absurd rfl h
    · exact absurd rfl h
  · rintro ⟨root, types, v, rfl, htypes, hne, hv, hmap⟩
    have hnodes : readSection root "node_types" =
        .ok (types.map fun e => readDefinition (readArchive? root) e.1 e.2) := by
      simp only [readSection, htypes]
    simp only [leftBy, hnodes, readSection_of_asObject? hv hmap]
    simpa using hne

theorem eq_extend_of_merge {doc : Json} {f : Failure} (h : c.merge doc = (.error f, c')) :
    c' = c.extend (leftBy doc) := by
  have hnothing : c = c.extend [] := by simp [extend]
  unfold merge at h
  split at h
  · next root =>
    simp only [sections, mergeSections] at h
    cases hnodes : readSection root "node_types" with
    | error g =>
      simp only [hnodes] at h
      cases h
      simpa only [leftBy, hnodes] using hnothing
    | ok ds =>
      cases hrelationships : readSection root "relationship_types" with
      | error g =>
        simp only [hnodes, hrelationships] at h
        cases h
        simp only [leftBy, hnodes, hrelationships]
      | ok es =>
        simp only [hnodes, hrelationships] at h
        cases h
  · next hmap =>
    cases h
    rw [leftBy]
    · exact hnothing
    · exact hmap

/-- A file that is read and decoded, and refused all the same, is refused for its document. -/
theorem merge_of_load {doc : Json} {t : FileTree} {p : Path} {text : String} {f : Failure}
    (htext : t.readText p = .ok text) (hdoc : Yaml.read? text = some doc)
    (h : c.load t p = (.error f, c')) : ∃ g, c.merge doc = (.error g, c') := by
  have hload : c.load t p =
      (inContext s!"invalid type document: {p.text}" (c.merge doc).1, (c.merge doc).2) := by
    simp [load, readSource, htext, readYaml, hdoc, bind, Except.bind]
  rw [hload] at h
  generalize c.merge doc = merged at h ⊢
  obtain ⟨outcome, c''⟩ := merged
  cases outcome with
  | ok u => cases h
  | error g => exact ⟨g, Prod.ext rfl (Prod.mk.inj h).2⟩

/-- A catalog that has refused a document has got what the document left and nothing else. -/
theorem Refuses.eq_extend {doc : Json} (h : c.Refuses doc c') : c' = c.extend (leftBy doc) := by
  cases h with
  | merge h => exact eq_extend_of_merge h
  | load htext hdoc h =>
    obtain ⟨g, hmerge⟩ := merge_of_load htext hdoc h
    exact eq_extend_of_merge hmerge

@[simp] theorem contains_extend : (c.extend left).contains name =
    (c.contains name || left.any (·.name = name)) := by
  simp [contains, extend]

/-- Definitions of other names do not count. -/
theorem select?_extend (h : ∀ d ∈ left, d.name ≠ name) :
    (c.extend left).select? dependencies name = c.select? dependencies name := by
  have hnone : left.filter (·.name = name) = [] := by simpa using h
  simp [select?, extend, hnone]

theorem parentOf?_eq_some_iff : c.parentOf? dependencies name = some parent ↔
    c.Extends dependencies name parent := by
  simp only [parentOf?, Option.bind_eq_some_iff, select?_eq_some_iff, Extends]

/-- The names that a climb meets follow the parents. -/
theorem map_snd_climb (c : TypeCatalog) (dependencies : List Coordinates) (n : Nat)
    (seen : List String) (name : String) :
    (c.climb dependencies (n + 1) seen name).map Prod.snd =
    match c.parentOf? dependencies name with
    | none => .ok []
    | some parent =>
      if seen.contains parent then .error (seen ++ [parent])
      else ((c.climb dependencies n (seen ++ [parent]) parent).map Prod.snd).map (parent :: ·) := by
  rw [climb, parentOf?]
  cases c.select? dependencies name with
  | none => rfl
  | some d =>
    cases hp : d.parent with
    | none => simp [hp, Except.map]
    | some parent =>
      simp only [hp, Option.bind_some]
      split
      · rfl
      · cases c.climb dependencies n (seen ++ [parent]) parent <;> rfl

/-- Where two catalogs agree on the parents that are met, climbs meet the same names in them. -/
theorem map_snd_climb_congr
    (h : ∀ x, Relation.ReflTransGen (c.Extends dependencies) name x →
      c'.parentOf? dependencies x = c.parentOf? dependencies x) (n : Nat)
    (seen : List String) :
    (c'.climb dependencies n seen name).map Prod.snd =
      (c.climb dependencies n seen name).map Prod.snd := by
  induction n generalizing seen name with
  | zero => rfl
  | succ n ih =>
    rw [map_snd_climb, map_snd_climb, h name .refl]
    cases hp : c.parentOf? dependencies name with
    | none => rfl
    | some parent =>
      have hstep := parentOf?_eq_some_iff.1 hp
      simp only [ih fun x hx => h x (.head hstep hx)]

/-- A climb does not need more steps than there are definitions. -/
theorem Climb.climb_succ (h : c.Climb dependencies seen name) {n : Nat}
    (hfuel : c.definitions.length + 1 < seen.length + n) :
    c.climb dependencies (n + 1) seen name = c.climb dependencies n seen name := by
  induction n generalizing seen name with
  | zero =>
    have := h.length_le
    omega
  | succ n ih =>
    rw [TypeCatalog.climb, TypeCatalog.climb]
    cases hd : c.select? dependencies name with
    | none => rfl
    | some d =>
      cases hp : d.parent with
      | none => simp only [hp]
      | some parent =>
        simp only [hp]
        split
        · rfl
        · next hnew =>
          have hstep := h.step (select?_eq_some_iff.1 hd) hp (by simpa using hnew)
          have hrest := ih hstep (by simp; omega)
          simp only [hrest]

theorem Climb.climb_add (h : c.Climb dependencies seen name) {n : Nat}
    (hfuel : c.definitions.length + 1 < seen.length + n) (k : Nat) :
    c.climb dependencies (n + k) seen name = c.climb dependencies n seen name := by
  induction k with
  | zero => rfl
  | succ k ih => rw [← Nat.add_assoc, h.climb_succ (by omega), ih]

/-- A climb that is refused has met a parent, and tells it after the names met before. -/
theorem exists_parent_of_climb_eq_error {n : Nat} {met : List String}
    (h : c.climb dependencies n seen name = .error met) :
    ∃ parent, c.parentOf? dependencies name = some parent ∧ seen ++ [parent] <+: met := by
  induction n generalizing seen name met with
  | zero => cases h
  | succ n ih =>
    have hnames := map_snd_climb c dependencies n seen name
    rw [h] at hnames
    cases hp : c.parentOf? dependencies name with
    | none =>
      rw [hp] at hnames
      cases hnames
    | some parent =>
      refine ⟨parent, rfl, ?_⟩
      simp only [hp] at hnames
      split at hnames
      · cases hnames
        exact List.prefix_rfl
      · cases hrest : c.climb dependencies n (seen ++ [parent]) parent with
        | ok found =>
          rw [hrest] at hnames
          cases hnames
        | error met' =>
          rw [hrest] at hnames
          cases hnames
          obtain ⟨next, -, hprefix⟩ := ih hrest
          exact (List.prefix_append (seen ++ [parent]) [next]).trans hprefix

/-- The first name that a climb meets is the parent. -/
theorem head?_of_climb_eq_ok {n : Nat} {found : List TypeDefinition × List String}
    (h : c.climb dependencies (n + 1) seen name = .ok found) :
    found.2.head? = c.parentOf? dependencies name := by
  have hnames := map_snd_climb c dependencies n seen name
  rw [h] at hnames
  cases hp : c.parentOf? dependencies name with
  | none =>
    rw [hp] at hnames
    have hnil : found.2 = [] := by simpa [Except.map] using hnames
    rw [hnil, List.head?_nil]
  | some parent =>
    simp only [hp] at hnames
    split at hnames
    · cases hnames
    · cases hrest : c.climb dependencies n (seen ++ [parent]) parent with
      | error met =>
        rw [hrest] at hnames
        cases hnames
      | ok rest =>
        rw [hrest] at hnames
        have hcons : found.2 = parent :: rest.2 := by simpa [Except.map] using hnames
        rw [hcons, List.head?_cons]

/-- Definitions are put on top of members whatever a profile is called and derived from. -/
theorem foldl_overlay_called (ds : List TypeDefinition) (p : TypeProfile) (name : String)
    (derivedFrom : List String) :
    ds.foldl overlay { p with name, derivedFrom } =
      { ds.foldl overlay p with name, derivedFrom } := by
  induction ds generalizing p with
  | nil => rfl
  | cons d ds ih =>
    rw [List.foldl_cons, List.foldl_cons, ← ih]
    rfl

theorem profileAlong_eq (name : String) (ds : List TypeDefinition) (parents : List String) :
    profileAlong name ds parents =
      { ds.reverse.foldl overlay (.bare "") with name, derivedFrom := parents } := by
  rw [← foldl_overlay_called]
  rfl

/-- A definition goes on top of the profile of the parent. -/
theorem profileAlong_cons (name parent : String) (d : TypeDefinition) (ds : List TypeDefinition)
    (parents : List String) : profileAlong name (d :: ds) (parent :: parents) =
      { overlay (profileAlong parent ds parents) d with
        name, derivedFrom := parent :: parents } := by
  rw [profileAlong_eq, profileAlong_eq, List.reverse_cons, List.foldl_append, List.foldl_cons,
    List.foldl_nil]
  rfl

/-- The outcome of a look-up from what its climb finds. -/
theorem lookup_eq : c.lookup name dependencies =
    match c.climb dependencies (c.definitions.length + 1) [name] name with
    | .error met => .error (.compile (.cyclicTypeHierarchy met))
    | .ok found => .ok (profileAlong name found.1 found.2) := by
  rw [lookup]
  cases c.climb dependencies (c.definitions.length + 1) [name] name <;> rfl

/-- The profile of a type whose chain of parents ends is made along this chain. -/
theorem Derivation.lookup_eq_ok (h : c.Derivation dependencies name ds parents) :
    c.lookup name dependencies = .ok (profileAlong name ds parents) := by
  rw [lookup_eq, climb_eq_ok_iff.2 h]

/-- A type that has a profile has a chain of parents that ends. -/
theorem exists_derivation {p : TypeProfile} (h : c.lookup name dependencies = .ok p) :
    ∃ ds parents, c.Derivation dependencies name ds parents := by
  rw [lookup_eq] at h
  cases hc : c.climb dependencies (c.definitions.length + 1) [name] name with
  | error met =>
    rw [hc] at h
    cases h
  | ok found => exact ⟨_, _, climb_eq_ok_iff.1 hc⟩

/-- The parent of a type, as the outcome of its look-up tells it. -/
def toldParent? : Except Failure TypeProfile → Option String
  | .ok p => p.derivedFrom.head?
  | .error (.compile (.cyclicTypeHierarchy met)) => met[1]?
  | .error _ => none

theorem toldParent?_lookup :
    toldParent? (c.lookup name dependencies) = c.parentOf? dependencies name := by
  rw [lookup_eq]
  cases hc : c.climb dependencies (c.definitions.length + 1) [name] name with
  | error met =>
    obtain ⟨parent, hp, rest, rfl⟩ := exists_parent_of_climb_eq_error hc
    exact hp.symm
  | ok found =>
    rw [← head?_of_climb_eq_ok hc]
    simp only [toldParent?, profileAlong_eq]

/-- Along the parents of a type another catalog has the same definition of each type, or makes the
same profile of it. -/
def SameAlong (c c' : TypeCatalog) (dependencies : List Coordinates) (name : String) : Prop :=
  ∀ x, Relation.ReflTransGen (c.Extends dependencies) name x →
    c'.select? dependencies x = c.select? dependencies x ∨
      c'.lookup x dependencies = c.lookup x dependencies

theorem SameAlong.above (h : c.SameAlong c' dependencies name)
    (hstep : c.Extends dependencies name parent) : c.SameAlong c' dependencies parent :=
  fun x hx => h x (.head hstep hx)

/-- A profile stays when the definition does and the profile of the parent does. -/
theorem SameAlong.lookup_of_derivation (h : c.SameAlong c' dependencies name)
    (hchain : c.Derivation dependencies name ds parents) :
    c'.lookup name dependencies = c.lookup name dependencies := by
  induction hchain with
  | @unindexed name hname =>
    rcases h name .refl with hselect | hlookup
    · rw [select?_eq_none_iff.2 hname, select?_eq_none_iff] at hselect
      rw [(Derivation.unindexed hname).lookup_eq_ok, (Derivation.unindexed hselect).lookup_eq_ok]
    · exact hlookup
  | @top name d hd hp =>
    rcases h name .refl with hselect | hlookup
    · rw [select?_eq_some_iff.2 hd, select?_eq_some_iff] at hselect
      rw [(Derivation.top hd hp).lookup_eq_ok, (Derivation.top hselect hp).lookup_eq_ok]
    · exact hlookup
  | @step name parent d ds parents hd hp hds ih =>
    rcases h name .refl with hselect | hlookup
    · rw [select?_eq_some_iff.2 hd, select?_eq_some_iff] at hselect
      have hparent := ih (h.above ⟨d, hd, hp⟩)
      rw [hds.lookup_eq_ok] at hparent
      obtain ⟨ds', parents', hds'⟩ := exists_derivation hparent
      rw [hds'.lookup_eq_ok] at hparent
      have hprofile := Except.ok.inj hparent
      have hnames : parents' = parents := by
        simpa [profileAlong_eq] using congrArg TypeProfile.derivedFrom hprofile
      rw [(Derivation.step hd hp hds).lookup_eq_ok, (Derivation.step hselect hp hds').lookup_eq_ok,
        profileAlong_cons, profileAlong_cons, hprofile, hnames]
    · exact hlookup

/-- A refusal stays, since the climb meets the same names. -/
theorem SameAlong.lookup_of_error (h : c.SameAlong (c.extend left) dependencies name) {f : Failure}
    (hc : c.lookup name dependencies = .error f) :
    (c.extend left).lookup name dependencies = .error f := by
  have hparents (x : String) (hx : Relation.ReflTransGen (c.Extends dependencies) name x) :
      (c.extend left).parentOf? dependencies x = c.parentOf? dependencies x := by
    rcases h x hx with hselect | hlookup
    · rw [parentOf?, parentOf?, hselect]
    · rw [← toldParent?_lookup, ← toldParent?_lookup, hlookup]
  have hlength : (c.extend left).definitions.length + 1 =
      c.definitions.length + 1 + left.length := by
    simp only [extend, List.length_append]
    omega
  have hnames := map_snd_climb_congr hparents (c.definitions.length + 1 + left.length) [name]
  rw [(Climb.start c dependencies name).climb_add (by simp) left.length] at hnames
  rw [lookup_eq] at hc ⊢
  rw [hlength]
  cases hmet : c.climb dependencies (c.definitions.length + 1) [name] name with
  | ok found =>
    rw [hmet] at hc
    cases hc
  | error met =>
    rw [hmet] at hc hnames
    cases hafter : (c.extend left).climb dependencies
        (c.definitions.length + 1 + left.length) [name] name with
    | ok found =>
      rw [hafter] at hnames
      cases hnames
    | error met' =>
      rw [hafter] at hnames
      cases hnames
      exact hc

/-- A type is looked up as before in a catalog with more definitions, if those of them that the
chain of its parents meets are. -/
theorem lookup_extend (h : ∀ d ∈ left, Relation.ReflTransGen (c.Extends dependencies) name d.name →
      (c.extend left).lookup d.name dependencies = c.lookup d.name dependencies) :
    (c.extend left).lookup name dependencies = c.lookup name dependencies := by
  have hsame : c.SameAlong (c.extend left) dependencies name := by
    intro x hx
    by_cases hmem : ∃ d ∈ left, d.name = x
    · obtain ⟨d, hd, rfl⟩ := hmem
      exact .inr (h d hd hx)
    · exact .inl (select?_extend fun d hd hname => hmem ⟨d, hd, hname⟩)
  cases hc : c.lookup name dependencies with
  | ok p =>
    obtain ⟨ds, parents, hchain⟩ := exists_derivation hc
    rw [← hc]
    exact hsame.lookup_of_derivation hchain
  | error f => exact hsame.lookup_of_error hc

/-- A catalog with more definitions answers as before exactly when it knew the types before and
looks them up as before. -/
theorem answersAs_extend_iff : (c.extend left).AnswersAs c ↔
    ∀ d ∈ left, c.contains d.name = true ∧ ∀ dependencies,
      (c.extend left).lookup d.name dependencies = c.lookup d.name dependencies := by
  constructor
  · intro h d hd
    refine ⟨?_, h.lookup d.name⟩
    rw [← h.contains, contains_extend, Bool.or_eq_true, List.any_eq_true]
    exact .inr ⟨d, hd, by simp⟩
  · intro h
    constructor
    · cases left with
      | nil => simp [extend]
      | cons d left =>
        have hknown := (h d List.mem_cons_self).1
        have hne : c.definitions ≠ [] := by
          rintro hnil
          simp [contains, hnil] at hknown
        have hafter : c.definitions ++ d :: left ≠ [] := List.append_ne_nil_of_left_ne_nil hne _
        rw [isEmpty, isEmpty, extend, List.isEmpty_eq_false_iff.2 hafter,
          List.isEmpty_eq_false_iff.2 hne]
    · intro name
      rw [contains_extend, Bool.or_eq_left_iff_imp, List.any_eq_true]
      rintro ⟨d, hd, hname⟩
      rw [decide_eq_true_eq] at hname
      exact hname ▸ (h d hd).1
    · exact fun name dependencies => lookup_extend fun d hd _ => (h d hd).2 dependencies

/-- A catalog that refuses a document, given as it is or in a file, is left with the definitions of
its node types if it is refused halfway, and else as it was. It answers as before exactly when it
knew all types that are left and looks each of them up as before; whatever they are, a type from
which the chain of parents meets none of them is looked up as before. -/
theorem answers_of_refused {doc : Json} (h : c.Refuses doc c') :
    c' = c.extend (leftBy doc) ∧
    (leftBy doc ≠ [] ↔ RefusedHalfway doc) ∧
    (c'.AnswersAs c ↔ ∀ d ∈ leftBy doc, c.contains d.name = true ∧
      ∀ dependencies, c'.lookup d.name dependencies = c.lookup d.name dependencies) ∧
    ∀ name dependencies,
      (∀ d ∈ leftBy doc, ¬ Relation.ReflTransGen (c.Extends dependencies) name d.name) →
      c'.lookup name dependencies = c.lookup name dependencies := by
  obtain rfl := h.eq_extend
  refine ⟨rfl, leftBy_ne_nil_iff doc, answersAs_extend_iff, fun name dependencies hmeets => ?_⟩
  exact lookup_extend fun d hd hx => absurd hx (hmeets d hd)

/-- A document that turns databases into caches, and is refused for its relationship types. -/
def brokenTypes : Json := .obj [
  ("node_types", .obj [("Db", .obj [("derived_from", .str "Cache")]), ("Cache", .obj [])]),
  ("relationship_types", .arr [])]

/-- A catalog that knows what databases are derived from. -/
def dbCatalog : TypeCatalog :=
  (empty.merge (.obj [("node_types", .obj [("Db", .obj [("derived_from", .str "Root")])])])).2

/-- Look-ups of the root type stay the same. -/
theorem lookup_root_brokenTypes : dbCatalog.Refuses brokenTypes (dbCatalog.merge brokenTypes).2 ∧
    (dbCatalog.merge brokenTypes).2.lookup "Root" [] = dbCatalog.lookup "Root" [] := by
  have hrefuses : dbCatalog.Refuses brokenTypes (dbCatalog.merge brokenTypes).2 :=
    .merge (f := .plain "relationship_types must be a map") rfl
  have hroot : dbCatalog.parentOf? [] "Root" = none := rfl
  have hnames : ∀ d ∈ leftBy brokenTypes, "Root" ≠ d.name := by decide
  refine ⟨hrefuses, (answers_of_refused hrefuses).2.2.2 "Root" [] fun d hd hx => ?_⟩
  rcases Relation.ReflTransGen.cases_head hx with hname | ⟨parent, hparent, -⟩
  · exact hnames d hd hname
  · rw [← parentOf?_eq_some_iff, hroot] at hparent
    cases hparent

/-- Though the document was refused, the catalog knows caches afterwards, and databases are derived
from them. -/
theorem not_answersAs_brokenTypes :
    dbCatalog.Refuses brokenTypes (dbCatalog.merge brokenTypes).2 ∧
    ¬ (dbCatalog.merge brokenTypes).2.AnswersAs dbCatalog ∧
    (dbCatalog.merge brokenTypes).2.contains "Cache" = true ∧
    dbCatalog.contains "Cache" = false ∧
    (((dbCatalog.merge brokenTypes).2.lookup "Db" []).map (·.derivedFrom)).toOption =
      some ["Cache"] ∧
    ((dbCatalog.lookup "Db" []).map (·.derivedFrom)).toOption = some ["Root"] := by
  have hknown : (dbCatalog.merge brokenTypes).2.contains "Cache" = true := rfl
  have hunknown : dbCatalog.contains "Cache" = false := rfl
  refine ⟨.merge (f := .plain "relationship_types must be a map") rfl, fun h => ?_, hknown,
    hunknown, rfl, rfl⟩
  rw [h.contains, hunknown] at hknown
  cases hknown

end TypeCatalog

end DeployPlan
