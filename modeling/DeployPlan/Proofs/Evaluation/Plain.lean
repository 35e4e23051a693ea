import DeployPlan.Evaluation
import Mathlib.Data.List.Basic
import Mathlib.Logic.Relation

/-!
# Plain values of properties

What a property value stands for, when the values of other properties are given, needs no pass. A
value reads other properties through calls; a property from which no cycle of reads is reached has
a plain value, that of its declared value in its own node's scope, through all that it reads.
-/
namespace DeployPlan

namespace Scene

/-- The node that satisfies a requirement of the node an entity key denotes. -/
def targetOf? (s : Scene) (scope : Scope) (key requirement : String) : Option NodeTemplate :=
  (s.entity? scope key).bind fun n =>
    (n.relationshipFor? requirement).bind fun r => s.topology.node? r.target

/-- The property that a call reads. -/
def readBy? (s : Scene) (scope : Scope) (call : FunctionCall) : Option PropertyKey :=
  if call.name = "get_property" then
    match call.args with
    | [key, property] => (s.entity? scope key).map fun n => ⟨n.id, property⟩
    | [key, requirement, property] =>
      (s.targetOf? scope key requirement).map fun n => ⟨n.id, property⟩
    | _ => none
  else none

mutual

/-- The properties that a value reads, in order. -/
def reads (s : Scene) (scope : Scope) : PropertyValue → List PropertyKey
  | .scalar _ => []
  | .complex _ => []
  | .list _ => []
  | .concat parts => readsAll s scope parts
  | .call call => (s.readBy? scope call).toList
  | .other _ => []

/-- The properties that values read, in order. -/
def readsAll (s : Scene) (scope : Scope) : List PropertyValue → List PropertyKey
  | [] => []
  | v :: vs => reads s scope v ++ readsAll s scope vs

end

/-- What a call stands for, `value` giving the values of properties. -/
def denoteCall (s : Scene) (value : PropertyKey → Resolution) (scope : Scope)
    (call : FunctionCall) : Resolution :=
  if call.name = "get_property" then ((s.readBy? scope call).map value).getD .unresolved
  else if call.name = "get_attribute" then
    match call.args with
    | [key, name] => .deferred (.gap ⟨((s.entity? scope key).map (·.id)).getD key, name⟩)
    | [key, requirement, name] =>
      match s.targetOf? scope key requirement with
      | some n => .deferred (.gap ⟨n.id, name⟩)
      | none => .unresolved
    | _ => .unresolved
  else .unresolved

mutual

/-- What a property value stands for in a scope, `value` giving the values of properties. -/
def denote (s : Scene) (value : PropertyKey → Resolution) (scope : Scope) :
    PropertyValue → Resolution
  | .scalar text => .resolved (.str text)
  | .complex fields => .resolved (.obj fields)
  | .list items => .resolved (.arr items)
  | .concat parts => (denoteParts s value scope .empty parts).toResolution
  | .call call => s.denoteCall value scope call
  | .other _ => .unresolved

/-- What the parts of a concatenation stand for, each pushed onto the format text. -/
def denoteParts (s : Scene) (value : PropertyKey → Resolution) (scope : Scope)
    (format : FormatText) : List PropertyValue → FormatText
  | [] => format
  | part :: parts =>
    denoteParts s value scope (format.pushResolution (denote s value scope part)) parts

end

def declared? (s : Scene) (key : PropertyKey) : Option PropertyValue :=
  s.rawProperty? key.node key.property

/-- The properties that the declared value of a property reads, in the scope of its node. -/
def readsOf (s : Scene) (key : PropertyKey) : List PropertyKey :=
  match s.declared? key with
  | none => []
  | some raw => s.reads (s.topology.nodeScope key.node) raw

/-- What the declared value of a property stands for in the scope of its node. -/
def valueOf (s : Scene) (value : PropertyKey → Resolution) (key : PropertyKey) : Resolution :=
  match s.declared? key with
  | none => .unresolved
  | some raw => s.denote value (s.topology.nodeScope key.node) raw

/-- The value of a property through at most `depth` properties that read one another. -/
def plainWithin (s : Scene) : Nat → PropertyKey → Resolution
  | 0, _ => .unresolved
  | depth + 1, key => s.valueOf (s.plainWithin depth) key

/-- The value of a property without a memo: what its declared value stands for in the scope of its
node, the properties that it reads having their plain values. -/
def plain (s : Scene) (key : PropertyKey) : Resolution :=
  s.plainWithin (Eval.declaredProperties s) key

/-- The declared value of a property reads another property. -/
def Reads (s : Scene) (key read : PropertyKey) : Prop := read ∈ s.readsOf key

/-- A property leads to another through any number of reads. -/
def LeadsTo (s : Scene) : PropertyKey → PropertyKey → Prop := Relation.ReflTransGen s.Reads

/-- No property that a property leads to leads back to itself through reads. -/
def Settled (s : Scene) (key : PropertyKey) : Prop :=
  ∀ k, s.LeadsTo key k → ¬ Relation.TransGen s.Reads k k

variable {s : Scene} {f g : PropertyKey → Resolution} {scope : Scope} {key k : PropertyKey}

theorem Settled.of_reads (h : s.Settled key) (hk : s.Reads key k) : s.Settled k :=
  fun other hother => h other (.head hk hother)

theorem denoteCall_congr {call : FunctionCall}
    (h : ∀ k, s.readBy? scope call = some k → f k = g k) :
    s.denoteCall f scope call = s.denoteCall g scope call := by
  unfold denoteCall
  split
  · cases hr : s.readBy? scope call with
    | none => rfl
    | some k => simp [h k hr]
  · rfl

mutual

theorem denote_congr {v : PropertyValue} (h : ∀ k ∈ s.reads scope v, f k = g k) :
    s.denote f scope v = s.denote g scope v := by
  match v with
  | .scalar _ | .complex _ | .list _ | .other _ => simp only [denote]
  | .concat parts =>
    simp only [denote]
    rw [denoteParts_congr]
    simpa only [reads] using h
  | .call call =>
    simp only [denote]
    refine denoteCall_congr fun k hk => h k ?_
    simp [reads, hk]

theorem denoteParts_congr {format : FormatText} {parts : List PropertyValue}
    (h : ∀ k ∈ s.readsAll scope parts, f k = g k) :
    s.denoteParts f scope format parts = s.denoteParts g scope format parts := by
  match parts with
  | [] => simp only [denoteParts]
  | part :: parts =>
    simp only [readsAll, List.mem_append] at h
    simp only [denoteParts]
    rw [denote_congr fun k hk => h k (.inl hk), denoteParts_congr fun k hk => h k (.inr hk)]

end

theorem valueOf_of_undeclared (h : s.declared? key = none) : s.valueOf f key = .unresolved := by
  simp only [valueOf, h]

theorem valueOf_congr (h : ∀ k ∈ s.readsOf key, f k = g k) : s.valueOf f key = s.valueOf g key := by
  unfold valueOf
  unfold readsOf at h
  split
  · rfl
  · next raw hraw =>
    rw [hraw] at h
    exact denote_congr h

/-- All properties that nodes declare or have from their types. -/
def declaredKeys (s : Scene) : List PropertyKey :=
  s.topology.nodes.flatMap fun n =>
    (n.properties.keys ++ (s.profile n.nodeType).properties.keys).map (PropertyKey.mk n.id)

theorem length_declaredKeys (s : Scene) :
    s.declaredKeys.length = Eval.declaredProperties s := by
  have hfold (ns : List NodeTemplate) (start : Nat) :
      ns.foldl (fun count n =>
        count + n.properties.size + (s.profile n.nodeType).properties.size) start =
      start + (ns.flatMap fun n => (n.properties.keys ++
        (s.profile n.nodeType).properties.keys).map (PropertyKey.mk n.id)).length := by
    induction ns generalizing start with
    | nil => rfl
    | cons n ns ih =>
      rw [List.foldl_cons, ih, List.flatMap_cons]
      simp only [List.length_append, List.length_map, Std.ExtTreeMap.length_keys]
      omega
  rw [Eval.declaredProperties, hfold, Nat.zero_add, declaredKeys]

theorem mem_declaredKeys {raw : PropertyValue} (h : s.declared? key = some raw) :
    key ∈ s.declaredKeys := by
  unfold declared? rawProperty? at h
  split at h
  · cases h
  · next n hn =>
    have hid := Topology.id_of_node? hn
    refine List.mem_flatMap.2 ⟨n, Topology.mem_of_node? hn, ?_⟩
    refine List.mem_map.2 ⟨key.property, ?_, by rw [hid]⟩
    rw [List.mem_append, Std.ExtTreeMap.mem_keys, Std.ExtTreeMap.mem_keys,
      Std.ExtTreeMap.mem_iff_isSome_getElem?, Std.ExtTreeMap.mem_iff_isSome_getElem?]
    rcases Option.or_eq_some_iff.1 h with h | ⟨-, h⟩
    · exact .inl (by simp [h])
    · exact .inr (by simp [h])

/-- How many declared properties, counted as they are declared, are not among the given ones. -/
def undone (s : Scene) (stack : List PropertyKey) : Nat :=
  (s.declaredKeys.filter (· ∉ stack)).length

theorem undone_le (s : Scene) (stack : List PropertyKey) :
    s.undone stack ≤ Eval.declaredProperties s := by
  rw [← length_declaredKeys]
  exact List.length_filter_le _ _

/-- A declared property that is added leaves fewer. -/
theorem undone_cons_lt {stack : List PropertyKey} (h : s.declared? key ≠ none)
    (hk : key ∉ stack) : s.undone (key :: stack) < s.undone stack := by
  obtain ⟨raw, hraw⟩ := Option.ne_none_iff_exists'.1 h
  have hsplit : s.declaredKeys.filter (· ∉ key :: stack) =
      (s.declaredKeys.filter (· ∉ stack)).filter (· ≠ key) := by
    rw [List.filter_filter]
    refine List.filter_congr fun k _ => ?_
    simp [List.mem_cons]
  rw [undone, hsplit]
  refine List.length_filter_lt_length_iff_exists.2 ⟨key, ?_, by simp⟩
  exact List.mem_filter.2 ⟨mem_declaredKeys hraw, by simpa using hk⟩

/-- A settled property has the same value through every sufficient number of properties. The
properties above it in a chain of reads are given; none of them is met again. -/
theorem plainWithin_eq {d d' : Nat} {stack : List PropertyKey} (hs : s.Settled key)
    (hstack : ∀ k ∈ stack, Relation.TransGen s.Reads k key) (hd : s.undone stack ≤ d)
    (hd' : s.undone stack ≤ d') : s.plainWithin d key = s.plainWithin d' key := by
  by_cases hkey : s.declared? key = none
  · cases d <;> cases d' <;> simp only [plainWithin, valueOf_of_undeclared hkey]
  have hlt := undone_cons_lt hkey fun hmem => hs key .refl (hstack key hmem)
  induction d generalizing d' key stack with
  | zero => omega
  | succ d ih =>
    obtain ⟨e, rfl⟩ : ∃ e, d' = e + 1 := ⟨d' - 1, by omega⟩
    simp only [plainWithin]
    refine valueOf_congr fun k hk => ?_
    by_cases hdecl : s.declared? k = none
    · cases d <;> cases e <;> simp only [plainWithin, valueOf_of_undeclared hdecl]
    have hstack' (above : PropertyKey) (habove : above ∈ key :: stack) :
        Relation.TransGen s.Reads above k := by
      rcases List.mem_cons.1 habove with rfl | habove
      · exact .single hk
      · exact (hstack above habove).tail hk
    have hk' : s.Settled k := hs.of_reads hk
    exact ih hk' hstack' (by omega) (by omega) hdecl
      (undone_cons_lt hdecl fun hmem => hk' k .refl (hstack' k hmem))

/-- The plain value of a settled property is what its declared value stands for among the plain
values of the properties that it reads. -/
theorem plain_eq (hs : s.Settled key) : s.plain key = s.valueOf s.plain key := by
  have hle := s.undone_le []
  have hmore : s.plainWithin (Eval.declaredProperties s) key =
      s.plainWithin (Eval.declaredProperties s + 1) key :=
    plainWithin_eq hs (List.forall_mem_nil _) hle (Nat.le_succ_of_le hle)
  rw [plain, hmore]
  rfl

end Scene

end DeployPlan
