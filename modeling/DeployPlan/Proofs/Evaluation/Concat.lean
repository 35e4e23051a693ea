import DeployPlan.Evaluation
import DeployPlan.Proofs.FormatText

/-!
# Grouping in concatenations

How the parts of a concatenation are grouped shows nowhere: a concatenation inside another is
evaluated like its parts in its place, and a text like the pieces it is cut into. Outcome, memo and
log are the same, in every pass.
-/
namespace DeployPlan

namespace PropertyValue

mutual

/-- The parts of a value that are no concatenations, in order, however deep they are nested. -/
def leaves : PropertyValue → List PropertyValue
  | .scalar text => [.scalar text]
  | .complex fields => [.complex fields]
  | .list items => [.list items]
  | .concat parts => leavesOf parts
  | .call c => [.call c]
  | .other raw => [.other raw]

def leavesOf : List PropertyValue → List PropertyValue
  | [] => []
  | v :: vs => leaves v ++ leavesOf vs

end

end PropertyValue

namespace Eval

variable {read : PropertyKey → Eval Resolution} {s : Scene} {scope : Scope}

theorem resolveParts_append (f : FormatText) (ps qs : List PropertyValue) :
    resolveParts read s scope f (ps ++ qs) =
      resolveParts read s scope f ps >>= fun g => resolveParts read s scope g qs := by
  induction ps generalizing f with
  | nil => simp only [List.nil_append, resolveParts, pure_bind]
  | cons p ps ih => simp only [List.cons_append, resolveParts, ih, bind_assoc]

/-- Parts can be evaluated on their own and then be appended to what was there before. -/
theorem resolveParts_onto (f g : FormatText) (ps : List PropertyValue) :
    resolveParts read s scope (f.append g) ps =
      resolveParts read s scope g ps >>= fun h => pure (f.append h) := by
  induction ps generalizing g with
  | nil => simp only [resolveParts, pure_bind]
  | cons p ps ih =>
    simp only [resolveParts, bind_assoc]
    refine bind_congr fun outcome => ?_
    rw [← FormatText.append_pushResolution, ih]

/-- A concatenation among the parts is evaluated like its own parts. -/
theorem resolveParts_concat (f : FormatText) (qs : List PropertyValue) :
    resolveParts read s scope f [.concat qs] = resolveParts read s scope f qs := by
  have hqs : resolveParts read s scope f qs =
      resolveParts read s scope .empty qs >>= fun g => pure (f.append g) :=
    resolveParts_onto f .empty qs
  simp only [resolveParts, resolveWith, bind_assoc, pure_bind,
    FormatText.pushResolution_toResolution, hqs]

/-- A text among the parts is evaluated like the two pieces it is cut into. -/
theorem resolveParts_scalar_append (f : FormatText) (t u : String) :
    resolveParts read s scope f [.scalar (t ++ u)] =
      resolveParts read s scope f [.scalar t, .scalar u] := by
  simp only [resolveParts, resolveWith, pure_bind, FormatText.pushResolution, Json.text,
    FormatText.pushText_pushText]

/-- Parts that are evaluated alike can replace each other among other parts. -/
theorem resolveWith_concat_congr {qs qs' : List PropertyValue}
    (h : ∀ f, resolveParts read s scope f qs = resolveParts read s scope f qs')
    (ps rs : List PropertyValue) :
    resolveWith read s scope (.concat (ps ++ qs ++ rs)) =
      resolveWith read s scope (.concat (ps ++ qs' ++ rs)) := by
  simp only [resolveWith, resolveParts_append, h]

mutual

theorem resolveParts_leaves (f : FormatText) (v : PropertyValue) :
    resolveParts read s scope f v.leaves = resolveParts read s scope f [v] := by
  match v with
  | .scalar _ | .complex _ | .list _ | .call _ | .other _ => simp only [PropertyValue.leaves]
  | .concat parts =>
    rw [PropertyValue.leaves, resolveParts_leavesOf, resolveParts_concat]

theorem resolveParts_leavesOf (f : FormatText) (vs : List PropertyValue) :
    resolveParts read s scope f (PropertyValue.leavesOf vs) = resolveParts read s scope f vs := by
  match vs with
  | [] => rfl
  | v :: vs =>
    rw [PropertyValue.leavesOf, resolveParts_append, ← List.singleton_append, resolveParts_append]
    simp only [resolveParts_leaves, resolveParts_leavesOf]

end

/-- In every scope and every pass, a concatenation inside another is evaluated like its parts in its
place, a text like the two pieces it is cut into, and nested concatenations like one of their
leaves: with the same outcome, memo and log. -/
theorem resolve_concat_regrouped (s : Scene) (scope : Scope) :
    (∀ ps qs rs, resolve s scope (.concat (ps ++ [.concat qs] ++ rs)) =
      resolve s scope (.concat (ps ++ qs ++ rs))) ∧
    (∀ ps t u rs, resolve s scope (.concat (ps ++ [.scalar (t ++ u)] ++ rs)) =
      resolve s scope (.concat (ps ++ [.scalar t, .scalar u] ++ rs))) ∧
    ∀ ps, resolve s scope (.concat ps) = resolve s scope (.concat (PropertyValue.leavesOf ps)) := by
  refine ⟨fun ps qs rs => ?_, fun ps t u rs => ?_, fun ps => ?_⟩
  · exact resolveWith_concat_congr (fun f => resolveParts_concat f qs) ps rs
  · exact resolveWith_concat_congr (fun f => resolveParts_scalar_append f t u) ps rs
  · simp only [resolve, resolveWith, resolveParts_leavesOf]

end Eval

end DeployPlan
