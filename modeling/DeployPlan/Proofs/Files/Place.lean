import DeployPlan.Proofs.Files.Names

/-!
# Where paths lead

A path is followed by its text alone: `.` stays, and `..` takes back the name before it. Above the
root there is the root; a relative path that takes back more names than it has given leads to above
its start. Below another path a relative one first takes back that many of the names of the other,
so it is still inside exactly when it gives these names again.
-/
namespace DeployPlan.Path

/-- Where a path leads. -/
structure Place where
  /-- Whether it is found from the root. -/
  absolute : Bool
  /-- How many directories above the start a relative path goes. -/
  above : Nat
  /-- The names from there, the innermost first. -/
  names : List String
deriving DecidableEq, Repr

namespace Place

def start (absolute : Bool) : Place := ⟨absolute, 0, []⟩

def up (a : Place) : Place :=
  match a.names with
  | _ :: names => { a with names := names }
  | [] => if a.absolute then a else { a with above := a.above + 1 }

def step (a : Place) (name : String) : Place :=
  if name = "." then a
  else if name = ".." then a.up
  else { a with names := name :: a.names }

/-- Where a relative path leads from a place. -/
def goOn (a b : Place) : Place where
  absolute := a.absolute
  above := if a.absolute then a.above else a.above + (b.above - a.names.length)
  names := b.names ++ a.names.drop b.above

/-- A place is another one or below it. -/
def IsIn (a b : Place) : Prop :=
  a.absolute = b.absolute ∧ a.above = b.above ∧ b.names <:+ a.names

instance (a b : Place) : Decidable (a.IsIn b) := inferInstanceAs (Decidable (_ ∧ _ ∧ _))

/-- The names that a path takes back from a place are there, and are the first ones that it gives
after that. -/
def Regains (a b : Place) : Prop :=
  (b.absolute = true ∨ a.above ≤ b.names.length) ∧ b.names.take a.above <:+ a.names

instance (a b : Place) : Decidable (a.Regains b) := inferInstanceAs (Decidable ((_ ∨ _) ∧ _))

variable {a b : Place}

theorem goOn_start (a : Place) : a.goOn (start false) = a := by
  simp [goOn, start]

/-- One directory up after a relative path is where the path one directory up leads. -/
theorem up_goOn (h : b.absolute = false) : (a.goOn b).up = a.goOn b.up := by
  cases hb : b.names with
  | cons name names => simp [up, goOn, hb]
  | nil =>
    have hup : b.up = { b with above := b.above + 1 } := by simp [up, hb, h]
    rw [hup]
    -- What is taken back now is a name of the base, as long as it has one.
    cases ha : a.names.drop b.above with
    | cons name names =>
      have hlt : b.above < a.names.length := by
        have hlength := congrArg List.length ha
        simp only [List.length_drop, List.length_cons] at hlength
        omega
      have hdrop : a.names.drop (b.above + 1) = names := by
        rw [← List.drop_drop, ha]
        rfl
      have hnone : b.above - a.names.length = 0 := by omega
      have hnone' : b.above + 1 - a.names.length = 0 := by omega
      simp [up, goOn, hb, ha, hdrop, hnone, hnone']
    | nil =>
      have hle : a.names.length ≤ b.above := by simpa using ha
      have hdrop : a.names.drop (b.above + 1) = [] := by
        simp only [List.drop_eq_nil_iff]
        omega
      have hone : b.above + 1 - a.names.length = b.above - a.names.length + 1 := by omega
      by_cases habs : a.absolute = true
      · simp [up, goOn, hb, ha, hdrop, habs]
      · simp [up, goOn, hb, ha, hdrop, habs, hone, Nat.add_assoc]

theorem step_goOn (h : b.absolute = false) (name : String) :
    (a.goOn b).step name = a.goOn (b.step name) := by
  unfold step
  split
  · rfl
  split
  · exact up_goOn h
  · rfl

@[simp] theorem absolute_up (a : Place) : a.up.absolute = a.absolute := by
  unfold up
  split
  · rfl
  · split <;> rfl

@[simp] theorem absolute_step (a : Place) (name : String) :
    (a.step name).absolute = a.absolute := by
  unfold step
  split
  · rfl
  split
  · exact absolute_up a
  · rfl

/-- Names followed from a place lead where they lead from the start, seen from there. -/
theorem foldl_step_goOn (h : b.absolute = false) (names : List String) :
    names.foldl step (a.goOn b) = a.goOn (names.foldl step b) := by
  induction names generalizing b with
  | nil => rfl
  | cons name names ih =>
    rw [List.foldl_cons, List.foldl_cons, step_goOn h]
    exact ih (by rw [absolute_step, h])

/-- Where a relative path leads from a place is inside that place exactly when the path regains the
names that it takes back. -/
theorem isIn_goOn_iff : (a.goOn b).IsIn a ↔ b.Regains a := by
  have hsuffix : a.names <:+ b.names ++ a.names.drop b.above ↔
      a.names.take b.above <:+ b.names := by
    have hcut : a.names.take b.above ++ a.names.drop b.above <:+ b.names ++ a.names.drop b.above ↔
        a.names.take b.above <:+ b.names := List.suffix_append_self_iff
    rwa [List.take_append_drop] at hcut
  have habove : (if a.absolute then a.above else a.above + (b.above - a.names.length)) = a.above ↔
      a.absolute = true ∨ b.above ≤ a.names.length := by
    by_cases habs : a.absolute = true
    · simp [habs]
    · simp only [habs, if_false, Bool.false_eq_true, false_or]
      omega
  simp only [IsIn, goOn, true_and, hsuffix, habove, Regains]

/-- Without a name for the directory above nothing is taken back. -/
theorem above_foldl_step {names : List String} (h : ".." ∉ names) (a : Place) :
    (names.foldl step a).above = a.above := by
  induction names generalizing a with
  | nil => rfl
  | cons name names ih =>
    rw [List.mem_cons, not_or] at h
    rw [List.foldl_cons, ih h.2]
    unfold step
    split
    · rfl
    · rw [if_neg (Ne.symm h.1)]

end Place

/-- Where a path leads by its text. -/
def place (p : Path) : Place := p.names.foldl Place.step (.start p.isAbsolute)

variable {base p : Path}

theorem join_of_isAbsolute (h : p.isAbsolute = true) : base.join p = p := by
  rw [join, if_pos h]

/-- The names of a path that goes on from another one come after the names of that one. -/
theorem names_join (h : p.isAbsolute = false) :
    (base.join p).names = base.names ++ p.names := by
  obtain ⟨front, hjoin, hpieces⟩ := exists_pieces_join base h
  have hbase : base.names = front.filter (· ≠ "") := by
    rw [names]
    rcases hpieces with hpieces | hpieces <;> simp [hpieces]
  rw [hbase, names, hjoin, List.filter_append]
  rfl

theorem isAbsolute_join (h : p.isAbsolute = false) :
    (base.join p).isAbsolute = base.isAbsolute := by
  rw [isAbsolute, text_join_of_relative h, stem]
  by_cases hempty : base.text = ""
  · have hbase : base.isAbsolute = false := by simp [isAbsolute, hempty]
    rw [if_pos (by simp [hempty]), hempty, String.empty_append, hbase]
    exact h
  · have hne : base.text.toList ≠ [] := by simpa using hempty
    rw [isAbsolute]
    split <;> simp [List.head?_append_of_ne_nil _ hne]

theorem place_join (h : p.isAbsolute = false) :
    (base.join p).place = base.place.goOn p.place := by
  have hstart : (Place.start p.isAbsolute).absolute = false := h
  rw [place, names_join h, isAbsolute_join h, List.foldl_append, ← place, place.eq_def p,
    ← Place.foldl_step_goOn hstart, h, Place.goOn_start]

/-- A relative path below another one leads inside of it exactly when it regains the names that it
takes back. -/
theorem isIn_join_iff (h : p.isAbsolute = false) :
    (base.join p).place.IsIn base.place ↔ p.place.Regains base.place := by
  rw [place_join h, Place.isIn_goOn_iff]

/-- A relative path that names no directory above takes nothing back. -/
theorem regains_of_not_mem (h : ".." ∉ p.names) (a : Place) : p.place.Regains a := by
  have habove : p.place.above = 0 := Place.above_foldl_step h _
  simp [Place.Regains, habove]

end DeployPlan.Path
