/-!
# Named entries in order

A list of named entries keeps the order in which names first came. Putting a value under a name
that is there replaces the value and keeps its place; taking a name out moves the last entry into
the gap.
-/
namespace DeployPlan.Entries

variable {α : Type}

def get? (name : String) : List (String × α) → Option α
  | [] => none
  | (key, value) :: rest => if key = name then some value else get? name rest

def has (name : String) (es : List (String × α)) : Bool := (get? name es).isSome

def names (es : List (String × α)) : List String := es.map (·.1)

def put (name : String) (value : α) : List (String × α) → List (String × α)
  | [] => [(name, value)]
  | (key, old) :: rest =>
    if key = name then (key, value) :: rest else (key, old) :: put name value rest

/-- The entries of `base`, each entry of `later` put in turn. -/
def putAll (base later : List (String × α)) : List (String × α) :=
  later.foldl (fun es e => put e.1 e.2 es) base

/-- The entries without the first one named `name`, the last entry moved into its place. -/
def remove (name : String) : List (String × α) → List (String × α)
  | [] => []
  | (key, value) :: rest =>
    if key = name then
      match rest.getLast? with
      | none => []
      | some last => last :: rest.dropLast
    else (key, value) :: remove name rest

def first? (names : List String) (es : List (String × α)) : Option α :=
  names.findSome? (get? · es)

@[simp] theorem get?_nil (name : String) : get? name ([] : List (String × α)) = none := rfl

@[simp] theorem get?_put_self (name : String) (value : α) (es : List (String × α)) :
    get? name (put name value es) = some value := by
  induction es with
  | nil => simp [put, get?]
  | cons e rest ih =>
    obtain ⟨key, old⟩ := e
    by_cases h : key = name <;> simp [put, get?, h, ih]

theorem get?_put_of_ne {name other : String} (h : other ≠ name) (value : α)
    (es : List (String × α)) : get? other (put name value es) = get? other es := by
  induction es with
  | nil => simp [put, get?, Ne.symm h]
  | cons e rest ih =>
    obtain ⟨key, old⟩ := e
    by_cases hk : key = name
    · subst hk; simp [put, get?, Ne.symm h]
    · by_cases ho : key = other
      · subst ho; simp [put, get?, hk]
      · simp [put, get?, hk, ho, ih]

/-- A value that is put is replaced by the next one under its name. -/
theorem put_put (name : String) (value value' : α) (es : List (String × α)) :
    put name value' (put name value es) = put name value' es := by
  induction es with
  | nil => simp [put]
  | cons e rest ih =>
    obtain ⟨key, old⟩ := e
    by_cases h : key = name <;> simp [put, h, ih]

theorem get?_eq_none_iff (name : String) (es : List (String × α)) :
    get? name es = none ↔ name ∉ names es := by
  induction es with
  | nil => simp [names]
  | cons e rest ih =>
    obtain ⟨key, value⟩ := e
    by_cases hk : key = name
    · simp [get?, names, hk]
    · have hk' : name ≠ key := Ne.symm hk
      simpa [get?, names, hk, hk'] using ih

theorem has_iff_mem_names (name : String) (es : List (String × α)) :
    has name es = true ↔ name ∈ names es := by
  rw [has, Option.isSome_iff_ne_none, Ne, get?_eq_none_iff, Decidable.not_not]

theorem mem_of_get? {name : String} {value : α} {es : List (String × α)}
    (h : get? name es = some value) : (name, value) ∈ es := by
  induction es with
  | nil => cases h
  | cons e es ih =>
    rw [get?] at h
    split at h
    · next hname =>
      cases h
      exact hname ▸ List.mem_cons_self
    · exact List.mem_cons_of_mem e (ih h)

end DeployPlan.Entries
