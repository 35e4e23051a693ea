import DeployPlan.FormatText

/-!
# Rendering texts with gaps

With its gaps filled, a format text is the concatenation of what was pushed onto it, whatever texts
were joined on the way; its gaps are those that were pushed. Appending is associative, and texts
that are pushed in pieces are pushed as one. What is placed on a plan renders as the format text
that it was made of, and is left to run time exactly when that has gaps.
-/
namespace DeployPlan

namespace FormatText

variable {fill : AttributeRef → String} {f g : FormatText} {a : AttributeRef} {t : String}

@[simp] theorem render_empty : empty.render fill = "" := String.join_nil

@[simp] theorem gaps_empty : empty.gaps = [] := rfl

theorem addText_cons {p : FormatPart} {ps : List FormatPart}
    (h : ∀ s, p = .text s → ps = [] → False) (t : String) :
    addText t (p :: ps) = p :: addText t ps := by
  rw [addText]
  exact h

theorem render_addText (t : String) (ps : List FormatPart) :
    String.join ((addText t ps).map (FormatPart.render fill)) =
      String.join (ps.map (FormatPart.render fill)) ++ t := by
  induction ps using addText.induct with
  | case1 => simp [addText, FormatPart.render]
  | case2 s => simp [addText, FormatPart.render]
  | case3 p ps h ih =>
    rw [addText_cons h]
    simp only [List.map_cons, String.join_cons, ih, String.append_assoc]

@[simp] theorem render_pushText : (f.pushText t).render fill = f.render fill ++ t := by
  unfold pushText
  split
  · next h => rw [h, String.append_empty]
  · exact render_addText t f.parts

@[simp] theorem render_pushGap : (f.pushGap a).render fill = f.render fill ++ fill a := by
  simp [render, pushGap, FormatPart.render]

@[simp] theorem render_pushPart {p : FormatPart} :
    (f.pushPart p).render fill = f.render fill ++ p.render fill := by
  cases p with
  | text t => exact render_pushText
  | gap a => exact render_pushGap

@[simp] theorem gaps_pushPart {p : FormatPart} :
    (f.pushPart p).gaps = f.gaps ++ p.gap?.toList := by
  cases p with
  | text t => simp [pushPart, FormatPart.gap?]
  | gap a => simp [pushPart, FormatPart.gap?]

@[simp] theorem render_append : (f.append g).render fill = f.render fill ++ g.render fill := by
  have hparts (ps : List FormatPart) (f : FormatText) : (ps.foldl pushPart f).render fill =
      f.render fill ++ String.join (ps.map (FormatPart.render fill)) := by
    induction ps generalizing f with
    | nil => simp
    | cons p ps ih =>
      rw [List.foldl_cons, ih, render_pushPart, List.map_cons, String.join_cons,
        String.append_assoc]
  exact hparts g.parts f

@[simp] theorem gaps_append : (f.append g).gaps = f.gaps ++ g.gaps := by
  have hparts (ps : List FormatPart) (f : FormatText) :
      (ps.foldl pushPart f).gaps = f.gaps ++ ps.filterMap FormatPart.gap? := by
    induction ps generalizing f with
    | nil => simp
    | cons p ps ih =>
      rw [List.foldl_cons, ih, gaps_pushPart, List.append_assoc]
      cases h : p.gap? <;> simp [h]
  exact hparts g.parts f

/-- The text of lines joined is that of the lines with a line break between each two. -/
theorem render_joinLines (fs : List FormatText) :
    (joinLines fs).render fill = "\n".intercalate (fs.map (render fill)) := by
  have hrest (fs : List FormatText) (f : FormatText) :
      (fs.foldl (fun joined g => (joined.pushText "\n").append g) f).render fill =
        "\n".intercalate (f.render fill :: fs.map (render fill)) := by
    induction fs generalizing f with
    | nil => rw [List.foldl_nil, List.map_nil, String.intercalate_singleton]
    | cons g fs ih =>
      rw [List.foldl_cons, ih, render_append, render_pushText, List.map_cons,
        String.intercalate_cons_append, String.intercalate_cons_cons]
  cases fs with
  | nil => rw [joinLines, render_empty, List.map_nil, String.intercalate_nil]
  | cons f fs =>
    rw [joinLines, hrest, render_append, render_empty, String.empty_append, List.map_cons]

theorem gaps_joinLines (fs : List FormatText) : (joinLines fs).gaps = fs.flatMap gaps := by
  have hrest (fs : List FormatText) (f : FormatText) :
      (fs.foldl (fun joined g => (joined.pushText "\n").append g) f).gaps =
        f.gaps ++ fs.flatMap gaps := by
    induction fs generalizing f with
    | nil => simp
    | cons g fs ih =>
      rw [List.foldl_cons, ih, gaps_append, gaps_pushText, List.flatMap_cons, List.append_assoc]
  cases fs with
  | nil => rfl
  | cons f fs => rw [joinLines, hrest, gaps_append, gaps_empty, List.nil_append, List.flatMap_cons]

/-- A text without gaps is the same however they are filled. -/
theorem render_of_isLiteral (h : f.isLiteral = true) (other : AttributeRef → String) :
    f.render fill = f.render other := by
  have hparts (p : FormatPart) (hp : p ∈ f.parts) : p.render fill = p.render other := by
    have hgap := List.all_eq_true.1 h p hp
    cases p with
    | text t => rfl
    | gap a => cases hgap
  rw [render, render, List.map_congr_left hparts]

end FormatText

namespace Resolution

/-- The text of a resolution, gaps filled by `fill`; nothing for an unresolved one. -/
def render (fill : AttributeRef → String) : Resolution → String
  | resolved v => v.text
  | deferred (.gap a) => fill a
  | deferred (.format f) => f.render fill
  | unresolved => ""

def gaps : Resolution → List AttributeRef
  | resolved _ => []
  | deferred (.gap a) => [a]
  | deferred (.format f) => f.gaps
  | unresolved => []

end Resolution

namespace FormatText

variable {fill : AttributeRef → String} {f : FormatText} {r : Resolution}

@[simp] theorem render_pushResolution :
    (f.pushResolution r).render fill = f.render fill ++ r.render fill := by
  cases r with
  | resolved v => exact render_pushText
  | unresolved => exact String.append_empty.symm
  | deferred d =>
    cases d with
    | gap a => exact render_pushGap
    | format g => exact render_append

@[simp] theorem gaps_pushResolution : (f.pushResolution r).gaps = f.gaps ++ r.gaps := by
  cases r with
  | resolved v => simp [pushResolution, Resolution.gaps]
  | unresolved => simp [pushResolution, Resolution.gaps]
  | deferred d =>
    cases d with
    | gap a => exact gaps_pushGap f a
    | format g => exact gaps_append

section

variable {g : FormatText} {s : String}

theorem addText_ne_nil (t : String) (ps : List FormatPart) : addText t ps ≠ [] := by
  cases ps using addText.fun_cases with
  | case1 => simp [addText]
  | case2 s => simp [addText]
  | case3 p ps h => simp [addText]

/-- Two texts that are added one after the other are added as one. -/
theorem addText_addText (s t : String) (ps : List FormatPart) :
    addText t (addText s ps) = addText (s ++ t) ps := by
  induction ps using addText.induct with
  | case1 => rfl
  | case2 u => simp only [addText, String.append_assoc]
  | case3 p ps h ih =>
    have hrest (u : String) (_ : p = .text u) (hnil : addText s ps = []) : False :=
      addText_ne_nil s ps hnil
    rw [addText_cons h, addText_cons hrest, addText_cons h, ih]

theorem pushText_pushText (f : FormatText) (s t : String) :
    (f.pushText s).pushText t = f.pushText (s ++ t) := by
  by_cases hs : s = ""
  · rw [hs, pushText_empty, String.empty_append]
  by_cases ht : t = ""
  · rw [ht, pushText_empty, String.append_empty]
  have hst : s ++ t ≠ "" := fun h => hs (String.append_eq_empty_iff.1 h).1
  simp only [pushText, if_neg hs, if_neg ht, if_neg hst, addText_addText]

theorem append_pushText (f g : FormatText) (t : String) :
    f.append (g.pushText t) = (f.append g).pushText t := by
  have hparts (ps : List FormatPart) (f : FormatText) :
      (addText t ps).foldl pushPart f = (ps.foldl pushPart f).pushText t := by
    induction ps using addText.induct generalizing f with
    | case1 => rfl
    | case2 s => exact (pushText_pushText f s t).symm
    | case3 p ps h ih => rw [addText_cons h, List.foldl_cons, ih, List.foldl_cons]
  by_cases ht : t = ""
  · rw [ht, pushText_empty, pushText_empty]
  · simp only [append, pushText, if_neg ht] at hparts ⊢
    exact hparts g.parts f

theorem append_pushGap (f g : FormatText) (a : AttributeRef) :
    f.append (g.pushGap a) = (f.append g).pushGap a := by
  simp only [append, pushGap, List.foldl_append, List.foldl_cons, List.foldl_nil, pushPart]

theorem append_pushPart (f g : FormatText) (p : FormatPart) :
    f.append (g.pushPart p) = (f.append g).pushPart p := by
  cases p with
  | text t => exact append_pushText f g t
  | gap a => exact append_pushGap f g a

theorem append_append (f g h : FormatText) : f.append (g.append h) = (f.append g).append h := by
  have hparts (ps : List FormatPart) (g : FormatText) :
      f.append (ps.foldl pushPart g) = ps.foldl pushPart (f.append g) := by
    induction ps generalizing g with
    | nil => rfl
    | cons p ps ih => rw [List.foldl_cons, List.foldl_cons, ih, append_pushPart]
  exact hparts h.parts g

theorem append_pushResolution (f g : FormatText) (r : Resolution) :
    f.append (g.pushResolution r) = (f.append g).pushResolution r := by
  cases r with
  | resolved v => exact append_pushText f g v.text
  | unresolved => rfl
  | deferred d =>
    cases d with
    | gap a => exact append_pushGap f g a
    | format h => exact append_append f g h

/-- A format text without gaps is appended like the text that it renders as. -/
theorem append_of_isLiteral (f : FormatText) (h : g.isLiteral = true) :
    f.append g = f.pushText g.display := by
  have hparts (ps : List FormatPart) (hps : ∀ p ∈ ps, p.gap?.isNone = true) (f : FormatText) :
      ps.foldl pushPart f =
        f.pushText (String.join (ps.map (FormatPart.render AttributeRef.display))) := by
    induction ps generalizing f with
    | nil => exact (pushText_empty f).symm
    | cons p ps ih =>
      have ⟨hp, hrest⟩ := List.forall_mem_cons.1 hps
      cases p with
      | gap a => cases hp
      | text t =>
        rw [List.foldl_cons, ih hrest, List.map_cons, String.join_cons]
        exact pushText_pushText f t _
  exact hparts g.parts (List.all_eq_true.1 h) f

/-- What a format text stands for is pushed like the format text itself, whether it has gaps or is
taken for a value. -/
theorem pushResolution_toResolution (f g : FormatText) :
    f.pushResolution g.toResolution = f.append g := by
  rw [toResolution]
  by_cases h : g.isLiteral = true
  · rw [if_pos h, append_of_isLiteral f h]
    rfl
  · rw [if_neg h]
    rfl

end

end FormatText

namespace PlanValue

/-- The text of a plan value, gaps filled by `fill`. -/
def render (fill : AttributeRef → String) : PlanValue → String
  | literal v => v.text
  | deferred (.gap a) => fill a
  | deferred (.format f) => f.render fill

def isDeferred : PlanValue → Bool
  | literal _ => false
  | deferred _ => true

/-- A format text makes a plan value with its text, left to run time exactly when it has gaps. -/
theorem ofResolution?_toResolution (f : FormatText) :
    ∃ v, ofResolution? f.toResolution = some v ∧ (∀ fill, v.render fill = f.render fill) ∧
      (v.isDeferred = true ↔ f.gaps ≠ []) := by
  rw [FormatText.toResolution]
  by_cases h : f.isLiteral = true
  · rw [if_pos h]
    refine ⟨literal (.str f.display), rfl, fun fill => ?_, ?_⟩
    · show f.render AttributeRef.display = f.render fill
      exact FormatText.render_of_isLiteral h fill
    · have hgaps := (FormatText.isLiteral_iff f).1 h
      simp [isDeferred, hgaps]
  · rw [if_neg h]
    refine ⟨deferred (.format f), rfl, fun fill => rfl, ?_⟩
    have hgaps : f.gaps ≠ [] := fun hnil => h ((FormatText.isLiteral_iff f).2 hnil)
    simp [isDeferred, hgaps]

end PlanValue

end DeployPlan
