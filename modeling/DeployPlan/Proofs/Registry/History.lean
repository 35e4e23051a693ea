import DeployPlan.Proofs.Registry

/-!
# Registries after calls

A registry is filled by calls in any order, through any of the handles that share it. A look-up then
answers with the last entry under the first of the names it tries that has one: a name, and after it
the one name it was bound to last. Calls that fill one table never change an answer of another.
-/
namespace DeployPlan

namespace Registry

variable {α : Type}

/-- A call that changes a registry. -/
inductive Update where
  | register (name : String) (f : Factory)
  | registerNative (name : String) (f : Factory)
  | bind (name target : String)
  | registerBehavior (name : String) (c : BehaviorCategory)

namespace Update

def perform (r : Registry) : Update → Registry
  | register name f => r.register name f
  | registerNative name f => r.registerNative name f
  | bind name target => r.bind name target
  | registerBehavior name c => r.registerBehavior name c

/-- The entry of the catalog that a call makes. -/
def catalog? : Update → Option (String × Factory)
  | register name f => some (name, f)
  | _ => none

def native? : Update → Option (String × Factory)
  | registerNative name f => some (name, f)
  | _ => none

/-- The name that a call binds, and what to. -/
def binding? : Update → Option (String × String)
  | bind name target => some (name, target)
  | _ => none

def behavior? : Update → Option (String × BehaviorCategory)
  | registerBehavior name c => some (name, c)
  | _ => none

end Update

def after (r : Registry) (us : List Update) : Registry := us.foldl Update.perform r

/-- What the last of the calls that make an entry under a name put there; `part` tells the entry of
a call in one table. -/
def latest? (part : Update → Option (String × α)) (us : List Update) (name : String) : Option α :=
  (Entries.valuesUnder name (us.filterMap part)).getLast?

/-- The first of some names with an entry, and its last entry. -/
def firstOf? (part : Update → Option (String × α)) (us : List Update) (names : List String) :
    Option (String × α) :=
  names.findSome? fun name => (latest? part us name).map (name, ·)

/-- The names that a look-up tries: a name, then the one that it was bound to last. -/
def tried (us : List Update) (name : String) : List String :=
  name :: (latest? Update.binding? us name).toList

/-- The names that a look-up in the catalog tries: those for a type in its version, if that is not
empty, before those for the type. -/
def catalogTried (us : List Update) (typeName : String) (version : Option String) : List String :=
  ((version.filter (· ≠ "")).toList.flatMap fun v => tried us s!"{typeName}:{v}") ++
    tried us typeName

/-- A call bears on look-ups in a table: it makes an entry there, or it binds a name. -/
def Update.bearsOn (part : Update → Option (String × α)) (u : Update) : Bool :=
  (part u).isSome || u.binding?.isSome

/-- A table of a registry holds the entries that calls make in it. -/
structure Holds (table : Registry → NameMap α) (part : Update → Option (String × α)) : Prop where
  empty : table .empty = ∅
  perform : ∀ r u, table (Update.perform r u) =
    (part u).toList.foldl (fun m e => m.insert e.1 e.2) (table r)

theorem holds_catalog : Holds (·.catalog) Update.catalog? :=
  ⟨rfl, fun _ u => by cases u <;> rfl⟩

theorem holds_natives : Holds (·.natives) Update.native? :=
  ⟨rfl, fun _ u => by cases u <;> rfl⟩

theorem holds_bindings : Holds (·.bindings) Update.binding? :=
  ⟨rfl, fun _ u => by cases u <;> rfl⟩

theorem holds_behaviors : Holds (·.behaviors) Update.behavior? :=
  ⟨rfl, fun _ u => by cases u <;> rfl⟩

variable {table : Registry → NameMap α} {part : Update → Option (String × α)} {us : List Update}

theorem Holds.after (h : Holds table part) (r : Registry) (us : List Update) :
    table (r.after us) = (us.filterMap part).foldl (fun m e => m.insert e.1 e.2) (table r) := by
  induction us generalizing r with
  | nil => rfl
  | cons u us ih =>
    have hrest : table (r.after (u :: us)) = table ((u.perform r).after us) := rfl
    rw [hrest, ih, h.perform]
    cases hu : part u with
    | none => rw [List.filterMap_cons_none hu, Option.toList_none, List.foldl_nil]
    | some e =>
      rw [List.filterMap_cons_some hu, Option.toList_some, List.foldl_cons, List.foldl_cons,
        List.foldl_nil]

/-- After calls the last entry under a name counts. -/
theorem Holds.getElem?_after (h : Holds table part) (us : List Update) (name : String) :
    (table (Registry.empty.after us))[name]? = latest? part us name := by
  rw [h.after, h.empty, NameMap.getElem?_foldl_insert, Std.ExtTreeMap.getElem?_empty,
    Option.or_none, latest?]

theorem Holds.matchIn?_after (h : Holds table part) (us : List Update) (name : String) :
    matchIn? (table (Registry.empty.after us)) (Registry.empty.after us).bindings name =
      firstOf? part us (tried us name) := by
  rw [matchIn?_eq_findSome?, holds_bindings.getElem?_after]
  simp only [h.getElem?_after]
  rfl

/-- Calls that bear on no look-up in a table can be left out. -/
theorem latest?_filter {keep : Update → Bool} (h : ∀ u, (part u).isSome → keep u)
    (us : List Update) (name : String) :
    latest? part (us.filter keep) name = latest? part us name := by
  rw [latest?, List.filterMap_filter]
  have hpart (u : Update) : (if keep u then part u else none) = part u := by
    by_cases hu : keep u
    · rw [if_pos hu]
    · rw [if_neg hu]
      exact (Option.not_isSome_iff_eq_none.1 fun hsome => hu (h u hsome)).symm
  simp only [hpart]
  rfl

theorem firstOf?_filter (part : Update → Option (String × α)) (us : List Update)
    (names : List String) :
    firstOf? part (us.filter (Update.bearsOn part)) names = firstOf? part us names := by
  have hkeep (u : Update) (hu : (part u).isSome) : Update.bearsOn part u := by
    rw [Update.bearsOn, hu, Bool.true_or]
  simp only [firstOf?, latest?_filter hkeep]

theorem tried_filter (part : Update → Option (String × α)) (us : List Update) (name : String) :
    tried (us.filter (Update.bearsOn part)) name = tried us name := by
  have hkeep (u : Update) (hu : u.binding?.isSome) : Update.bearsOn part u := by
    rw [Update.bearsOn, hu, Bool.or_true]
  simp only [tried, latest?_filter hkeep]

/-- An entry that is found was made by one of the calls, under the name it is found by. -/
theorem mem_of_firstOf? {names : List String} {name : String} {entry : α}
    (h : firstOf? part us names = some (name, entry)) :
    name ∈ names ∧ ∃ u ∈ us, part u = some (name, entry) := by
  obtain ⟨tried, htried, hlatest⟩ := List.exists_of_findSome?_eq_some h
  obtain ⟨found, hfound, heq⟩ := Option.map_eq_some_iff.1 hlatest
  cases heq
  obtain ⟨e, he, rfl⟩ := List.mem_map.1 (List.mem_of_getLast? hfound)
  obtain ⟨he, hname⟩ := List.mem_filter.1 he
  obtain ⟨u, hu, hpart⟩ := List.mem_filterMap.1 he
  refine ⟨htried, u, hu, ?_⟩
  rw [hpart, ← of_decide_eq_true hname]

/-- How a registry answers after calls: with the last entry under the first name it tries, which is
an entry that one of the calls made there, and by the calls that bear on the table alone. -/
structure AnswersFor (r : Registry) (us : List Update) : Prop where
  catalog : ∀ typeName version, r.findCatalog? typeName version =
    firstOf? Update.catalog? us (catalogTried us typeName version)
  native : ∀ typeName, r.findNative? typeName = firstOf? Update.native? us (tried us typeName)
  category : ∀ behaviorType, r.category? behaviorType =
    (firstOf? Update.behavior? us (tried us behaviorType)).map (·.2)
  catalog_made : ∀ typeName version name f,
    r.findCatalog? typeName version = some (name, f) → .register name f ∈ us
  native_made : ∀ typeName name f,
    r.findNative? typeName = some (name, f) → .registerNative name f ∈ us
  category_made : ∀ behaviorType c,
    r.category? behaviorType = some c → ∃ name, .registerBehavior name c ∈ us
  catalog_alone : ∀ typeName version, r.findCatalog? typeName version =
    (empty.after (us.filter (Update.bearsOn Update.catalog?))).findCatalog? typeName version
  native_alone : ∀ typeName, r.findNative? typeName =
    (empty.after (us.filter (Update.bearsOn Update.native?))).findNative? typeName
  category_alone : ∀ behaviorType, r.category? behaviorType =
    (empty.after (us.filter (Update.bearsOn Update.behavior?))).category? behaviorType

theorem firstOf?_append (part : Update → Option (String × α)) (us : List Update)
    (names others : List String) : firstOf? part us (names ++ others) =
      (firstOf? part us names).or (firstOf? part us others) :=
  List.findSome?_append

theorem findCatalog?_after (us : List Update) (typeName : String) (version : Option String) :
    (empty.after us).findCatalog? typeName version =
      firstOf? Update.catalog? us (catalogTried us typeName version) := by
  simp only [findCatalog?_eq_or, holds_catalog.matchIn?_after, catalogTried, firstOf?_append]
  cases version.filter (· ≠ "") with
  | none => rfl
  | some v => rw [Option.bind_some, Option.toList_some, List.flatMap_singleton]

theorem findNative?_after (us : List Update) (typeName : String) :
    (empty.after us).findNative? typeName =
      firstOf? Update.native? us (tried us typeName) :=
  holds_natives.matchIn?_after us typeName

theorem category?_after (us : List Update) (behaviorType : String) :
    (empty.after us).category? behaviorType =
      (firstOf? Update.behavior? us (tried us behaviorType)).map (·.2) := by
  rw [category?, holds_behaviors.matchIn?_after]

theorem catalogTried_filter (part : Update → Option (String × α)) (us : List Update)
    (typeName : String) (version : Option String) :
    catalogTried (us.filter (Update.bearsOn part)) typeName version =
      catalogTried us typeName version := by
  simp only [catalogTried, tried_filter]

theorem answersFor_after (us : List Update) : (empty.after us).AnswersFor us where
  catalog := findCatalog?_after us
  native := findNative?_after us
  category := category?_after us
  catalog_made typeName version name f h := by
    rw [findCatalog?_after] at h
    obtain ⟨-, u, hu, hpart⟩ := mem_of_firstOf? h
    cases u with
    | register name f =>
      cases hpart
      exact hu
    | _ => cases hpart
  native_made typeName name f h := by
    rw [findNative?_after] at h
    obtain ⟨-, u, hu, hpart⟩ := mem_of_firstOf? h
    cases u with
    | registerNative name f =>
      cases hpart
      exact hu
    | _ => cases hpart
  category_made behaviorType c h := by
    rw [category?_after] at h
    obtain ⟨⟨name, c⟩, hfirst, rfl⟩ := Option.map_eq_some_iff.1 h
    obtain ⟨-, u, hu, hpart⟩ := mem_of_firstOf? hfirst
    cases u with
    | registerBehavior name c =>
      cases hpart
      exact ⟨name, hu⟩
    | _ => cases hpart
  catalog_alone typeName version := by
    rw [findCatalog?_after, findCatalog?_after, firstOf?_filter, catalogTried_filter]
  native_alone typeName := by
    rw [findNative?_after, findNative?_after, firstOf?_filter, tried_filter]
  category_alone behaviorType := by
    rw [category?_after, category?_after, firstOf?_filter, tried_filter]

end Registry

/-- Registries and the handles of them. Handles of one registry share it. -/
structure Handles where
  registries : List Registry
  /-- For each handle the place of its registry. -/
  held : List Nat
  held_lt : ∀ place ∈ held, place < registries.length

namespace Handles

open Registry (Update)

/-- Something that is done with handles, which are numbered in the order in which they are made. -/
inductive Action where
  | create
  | clone (handle : Nat)
  | call (handle : Nat) (u : Update)

def start : Handles := ⟨[], [], List.forall_mem_nil _⟩

/-- A new registry comes with a handle of its own, a clone is one more handle of the same registry,
and a call changes the registry of its handle. -/
def act (s : Handles) : Action → Handles
  | .create => {
      registries := s.registries ++ [.empty]
      held := s.held ++ [s.registries.length]
      held_lt := by
        have hlt := s.held_lt
        simp only [List.length_append, List.length_singleton, List.forall_mem_append,
          List.forall_mem_singleton]
        exact ⟨fun place hplace => Nat.lt_succ_of_lt (hlt place hplace), Nat.lt_succ_self _⟩ }
  | .clone handle => {
      registries := s.registries
      held := s.held ++ s.held[handle]?.toList
      held_lt := by
        have hlt := s.held_lt
        rw [List.forall_mem_append]
        exact ⟨hlt, fun place hplace =>
          hlt place (List.mem_of_getElem? (Option.mem_toList.1 hplace))⟩ }
  | .call handle u => {
      registries := s.held[handle]?.elim s.registries fun place =>
        s.registries.modify place u.perform
      held := s.held
      held_lt := by
        have hlt := s.held_lt
        cases s.held[handle]? with
        | none => exact hlt
        | some place => simpa only [Option.elim_some, List.length_modify] using hlt }

def run (s : Handles) (as : List Action) : Handles := as.foldl act s

/-- The registry of a handle. -/
def registryOf? (s : Handles) (handle : Nat) : Option Registry :=
  s.held[handle]?.bind fun place => s.registries[place]?

/-- The call that an action makes to the registry at a place. -/
def callAt? (s : Handles) (place : Nat) : Action → Option Update
  | .call handle u => if s.held[handle]? = some place then some u else none
  | _ => none

/-- The calls that actions make to the registry at a place, through whichever handle. -/
def callsAt (place : Nat) : Handles → List Action → List Update
  | _, [] => []
  | s, a :: as => (s.callAt? place a).toList ++ callsAt place (s.act a) as

/-- The registry at a place; where none was made yet there is an empty one. -/
def registryAt (s : Handles) (place : Nat) : Registry := s.registries[place]?.getD .empty

/-- An action does to the registry at a place what its call to that registry does. -/
theorem registryAt_act (s : Handles) (a : Action) (place : Nat) :
    (s.act a).registryAt place = (s.registryAt place).after (s.callAt? place a).toList := by
  cases a with
  | create =>
    show (s.registries ++ [Registry.empty])[place]?.getD .empty = s.registryAt place
    rw [registryAt, List.getElem?_append]
    split
    · rfl
    · next hlt =>
      have hnone : s.registries[place]? = none := List.getElem?_eq_none (Nat.not_lt.1 hlt)
      rw [hnone, List.getElem?_singleton]
      split <;> rfl
  | clone handle => rfl
  | call handle u =>
    cases hheld : s.held[handle]? with
    | none => simp only [act, callAt?, registryAt, hheld, Option.elim_none, reduceCtorEq, if_false,
        Option.toList_none, Registry.after, List.foldl_nil]
    | some held =>
      simp only [act, callAt?, registryAt, hheld, Option.elim_some, Option.some.injEq]
      rw [List.getElem?_modify]
      by_cases hplace : held = place
      · subst hplace
        have hlt := s.held_lt held (List.mem_of_getElem? hheld)
        rw [List.getElem?_eq_getElem hlt]
        simp only [if_true]
        rfl
      · simp only [hplace, if_false]
        simp [Registry.after]

/-- Whatever is done with handles, the registry at a place has had the calls to it in turn. -/
theorem registryAt_run (s : Handles) (as : List Action) (place : Nat) :
    (s.run as).registryAt place = (s.registryAt place).after (callsAt place s as) := by
  induction as generalizing s with
  | nil => rfl
  | cons a as ih =>
    have hcalls : (s.registryAt place).after (callsAt place s (a :: as)) =
        ((s.registryAt place).after (s.callAt? place a).toList).after
          (callsAt place (s.act a) as) :=
      List.foldl_append
    rw [hcalls, ← registryAt_act]
    exact ih (s.act a)

theorem registryOf?_eq {s : Handles} {handle place : Nat} (h : s.held[handle]? = some place) :
    s.registryOf? handle = some (s.registryAt place) := by
  have hlt := s.held_lt place (List.mem_of_getElem? h)
  rw [registryOf?, h, Option.bind_some, registryAt, List.getElem?_eq_getElem hlt, Option.getD_some]

/-- After anything that is done with handles, a handle has the registry that answers for all calls
made to it through any of its handles, and for no others. -/
theorem answers_of_handle (as : List Action) {handle place : Nat}
    (h : (start.run as).held[handle]? = some place) :
    ∃ r, (start.run as).registryOf? handle = some r ∧ r.AnswersFor (callsAt place start as) := by
  refine ⟨(start.run as).registryAt place, registryOf?_eq h, ?_⟩
  have hstart : start.registryAt place = .empty := rfl
  rw [registryAt_run, hstart]
  exact Registry.answersFor_after _

/-- Two handles of one registry, in which two names are bound to each other, beside a registry of
its own. -/
def boundActions : List Action :=
  let store : Factory := fun _ => .error (.plain "no store left")
  [.create, .clone 0, .call 1 (.register "Db:2" store), .call 0 (.bind "Db" "Store"),
    .call 1 (.bind "Store" "Db"), .call 0 (.registerNative "Cache" store), .create,
    .call 2 (.register "Db" store), .call 1 (.register "Store" store)]

/-- A handle finds what was registered through the other one, one step along a binding and never in
another table or another registry. -/
theorem answers_boundActions : (start.run boundActions).held[0]? = some 0 ∧
    ∃ r, (start.run boundActions).registryOf? 0 = some r ∧
      (r.findCatalog? "Db" (some "2")).map (·.1) = some "Db:2" ∧
      (r.findCatalog? "Db" (some "1")).map (·.1) = some "Store" ∧
      (r.findCatalog? "Cache" none).map (·.1) = none ∧
      (r.findNative? "Cache").map (·.1) = some "Cache" ∧
      (r.findNative? "Store").map (·.1) = none := by
  have hheld : (start.run boundActions).held[0]? = some 0 := by decide
  obtain ⟨r, hr, hanswers⟩ := answers_of_handle boundActions hheld
  refine ⟨hheld, r, hr, ?_⟩
  rw [hanswers.catalog, hanswers.catalog, hanswers.catalog, hanswers.native, hanswers.native]
  decide +kernel

end Handles

end DeployPlan
