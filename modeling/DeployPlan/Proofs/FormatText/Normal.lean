import DeployPlan.Proofs.FormatText
import Mathlib.Data.List.Chain
import Mathlib.Data.List.Induction

/-!
# The normal form of a format text

A format text is normal when none of its texts is empty and no two of them stand side by side. What
it says is the sequence of its characters and gaps, and two normal format texts that say the same
are equal. However texts, gaps, format texts and resolutions are pushed, what comes out is the
normal format text that says what was pushed.
-/
namespace DeployPlan

def FormatPart.symbols : FormatPart → List (Char ⊕ AttributeRef)
  | text t => t.toList.map .inl
  | gap a => [.inr a]

/-- Two parts may stand side by side unless both are texts. -/
def FormatPart.Apart (p q : FormatPart) : Prop := p.gap?.isSome ∨ q.gap?.isSome

/-- What a format text says: its characters and gaps in order, however they are cut into parts. -/
def FormatText.symbols (f : FormatText) : List (Char ⊕ AttributeRef) :=
  f.parts.flatMap FormatPart.symbols

/-- The characters and gaps of a resolution in order; none for an unresolved one. -/
def Resolution.symbols : Resolution → List (Char ⊕ AttributeRef)
  | resolved v => v.text.toList.map .inl
  | deferred (.gap a) => [.inr a]
  | deferred (.format f) => f.symbols
  | unresolved => []

namespace FormatText

/-- No text is empty, and no two texts stand side by side. -/
structure IsNormal (f : FormatText) : Prop where
  nonempty : .text "" ∉ f.parts
  separated : f.parts.IsChain FormatPart.Apart

/-- What is pushed onto a format text at one time. -/
inductive Push where
  | text (text : String)
  | gap (ref : AttributeRef)
  | format (format : FormatText)
  | resolution (resolution : Resolution)

namespace Push

def symbols : Push → List (Char ⊕ AttributeRef)
  | text t => t.toList.map .inl
  | gap a => [.inr a]
  | format f => f.symbols
  | resolution r => r.symbols

/-- The text of what is pushed, gaps filled by `fill`. -/
def render (fill : AttributeRef → String) : Push → String
  | text t => t
  | gap a => fill a
  | format f => f.render fill
  | resolution r => r.render fill

def gaps : Push → List AttributeRef
  | text _ => []
  | gap a => [a]
  | format f => f.gaps
  | resolution r => r.gaps

end Push

def push (f : FormatText) : Push → FormatText
  | .text t => f.pushText t
  | .gap a => f.pushGap a
  | .format g => f.append g
  | .resolution r => f.pushResolution r

def pushed (pushes : List Push) : FormatText := pushes.foldl push empty

/-- Pushes one character or one gap. -/
def pushSymbol (f : FormatText) : Char ⊕ AttributeRef → FormatText
  | .inl c => f.pushText (String.singleton c)
  | .inr a => f.pushGap a

section

variable {f : FormatText} {t : String} {p : FormatPart} {ps : List FormatPart}

/-- A text that is added after a text extends it. -/
theorem addText_concat_text (t s : String) (ps : List FormatPart) :
    addText t (ps ++ [.text s]) = ps ++ [.text (s ++ t)] := by
  induction ps with
  | nil => rfl
  | cons p ps ih =>
    rw [List.cons_append, addText_cons (fun _ _ h => by simp at h), ih, List.cons_append]

/-- A text that is added after a gap is a part of its own. -/
theorem addText_concat_gap (t : String) (a : AttributeRef) (ps : List FormatPart) :
    addText t (ps ++ [.gap a]) = ps ++ [.gap a] ++ [.text t] := by
  induction ps with
  | nil => rfl
  | cons p ps ih =>
    rw [List.cons_append, addText_cons (fun _ _ h => by simp at h), ih]
    rfl

/-- The last part has to be a text with something in it, or a gap, and no text after a text. -/
theorem isNormal_concat : (⟨ps ++ [p]⟩ : FormatText).IsNormal ↔
    (⟨ps⟩ : FormatText).IsNormal ∧ p ≠ .text "" ∧ ∀ q ∈ ps.getLast?, q.Apart p := by
  constructor
  · rintro ⟨hnonempty, hseparated⟩
    simp only [List.mem_append, List.mem_singleton, not_or] at hnonempty
    rw [List.isChain_append] at hseparated
    refine ⟨⟨hnonempty.1, hseparated.1⟩, Ne.symm hnonempty.2, fun q hq => ?_⟩
    exact hseparated.2.2 q hq p rfl
  · rintro ⟨⟨hnonempty, hseparated⟩, hp, hlast⟩
    constructor
    · simp only [List.mem_append, List.mem_singleton, not_or]
      exact ⟨hnonempty, Ne.symm hp⟩
    · rw [List.isChain_append]
      refine ⟨hseparated, List.IsChain.singleton p, fun q hq r hr => ?_⟩
      cases hr
      exact hlast q hq

theorem isNormal_empty : empty.IsNormal := ⟨List.not_mem_nil, List.IsChain.nil⟩

theorem IsNormal.pushGap (h : f.IsNormal) (a : AttributeRef) : (f.pushGap a).IsNormal := by
  refine isNormal_concat.2 ⟨h, ?_, fun q _ => ?_⟩
  · exact FormatPart.noConfusion
  · exact .inr rfl

theorem IsNormal.pushText (h : f.IsNormal) (t : String) : (f.pushText t).IsNormal := by
  by_cases ht : t = ""
  · rwa [ht, pushText_empty]
  have hnew : FormatPart.text t ≠ .text "" := fun heq => ht (FormatPart.text.inj heq)
  obtain ⟨parts⟩ := f
  rw [FormatText.pushText, if_neg ht]
  -- What becomes of the text is told by the last part.
  obtain rfl | ⟨ps, p, rfl⟩ := List.eq_nil_or_concat parts
  · exact isNormal_concat.2 ⟨isNormal_empty, hnew, fun q hq => by cases hq⟩
  rw [List.concat_eq_append] at h ⊢
  obtain ⟨hps, -, hlast⟩ := isNormal_concat.1 h
  cases p with
  | text s =>
    rw [addText_concat_text]
    refine isNormal_concat.2 ⟨hps, fun heq => ht ?_, hlast⟩
    exact (String.append_eq_empty_iff.1 (FormatPart.text.inj heq)).2
  | gap a =>
    rw [addText_concat_gap]
    refine isNormal_concat.2 ⟨h, hnew, fun q hq => .inl ?_⟩
    rw [List.getLast?_concat] at hq
    cases hq
    rfl

/-- A part that may stand at the end of a normal format text is pushed as it is. -/
theorem pushPart_of_isNormal (h : (⟨ps ++ [p]⟩ : FormatText).IsNormal) :
    pushPart ⟨ps⟩ p = ⟨ps ++ [p]⟩ := by
  obtain ⟨-, hp, hlast⟩ := isNormal_concat.1 h
  cases p with
  | gap a => rfl
  | text t =>
    have ht : t ≠ "" := fun heq => hp (congrArg FormatPart.text heq)
    rw [pushPart, FormatText.pushText, if_neg ht]
    obtain rfl | ⟨qs, q, rfl⟩ := List.eq_nil_or_concat ps
    · rfl
    rw [List.concat_eq_append] at hlast ⊢
    cases q with
    | gap a => rw [addText_concat_gap]
    | text s =>
      have hapart := hlast (.text s) (List.getLast?_concat ..)
      simp [FormatPart.Apart, FormatPart.gap?] at hapart

/-- A normal format text is what its parts make of nothing. -/
theorem IsNormal.append_empty (h : f.IsNormal) : empty.append f = f := by
  obtain ⟨parts⟩ := f
  induction parts using List.reverseRecOn with
  | nil => rfl
  | append_singleton ps p ih =>
    have hpush := pushPart_of_isNormal h
    rw [← hpush, append_pushPart, ih (isNormal_concat.1 h).1]

end

/-! Whatever is pushed, its characters and gaps are pushed one by one. -/

section

variable {f : FormatText}

theorem pushText_eq_foldl (f : FormatText) (t : String) :
    f.pushText t = (t.toList.map .inl).foldl pushSymbol f := by
  have hchars (cs : List Char) (f : FormatText) :
      f.pushText (String.ofList cs) = (cs.map .inl).foldl pushSymbol f := by
    induction cs generalizing f with
    | nil => exact pushText_empty f
    | cons c cs ih =>
      have hcons : String.ofList (c :: cs) = String.singleton c ++ String.ofList cs := by
        rw [String.singleton_eq_ofList, ← String.ofList_append, List.singleton_append]
      rw [hcons, ← pushText_pushText, ih]
      rfl
  rw [← hchars, String.ofList_toList]

theorem append_eq_foldl (f g : FormatText) : f.append g = g.symbols.foldl pushSymbol f := by
  have hpart (f : FormatText) (p : FormatPart) : f.pushPart p = p.symbols.foldl pushSymbol f := by
    cases p with
    | text t => exact pushText_eq_foldl f t
    | gap a => rfl
  rw [append, symbols, List.foldl_flatMap]
  congr 1
  funext f p
  exact hpart f p

theorem push_eq_foldl (f : FormatText) (push : Push) :
    f.push push = push.symbols.foldl pushSymbol f := by
  cases push with
  | text t => exact pushText_eq_foldl f t
  | gap a => rfl
  | format g => exact append_eq_foldl f g
  | resolution r =>
    cases r with
    | resolved v => exact pushText_eq_foldl f v.text
    | unresolved => rfl
    | deferred d =>
      cases d with
      | gap a => rfl
      | format g => exact append_eq_foldl f g

theorem pushed_eq_foldl (pushes : List Push) :
    pushed pushes = (pushes.flatMap Push.symbols).foldl pushSymbol empty := by
  rw [pushed, List.foldl_flatMap]
  congr 1
  funext f push
  exact push_eq_foldl f push

theorem symbols_pushSymbol (f : FormatText) (x : Char ⊕ AttributeRef) :
    (f.pushSymbol x).symbols = f.symbols ++ [x] := by
  obtain ⟨parts⟩ := f
  cases x with
  | inr a => simp [pushSymbol, pushGap, symbols, FormatPart.symbols]
  | inl c =>
    rw [pushSymbol, FormatText.pushText, if_neg (by simp)]
    obtain rfl | ⟨ps, p, rfl⟩ := List.eq_nil_or_concat parts
    · simp [addText, symbols, FormatPart.symbols]
    rw [List.concat_eq_append]
    cases p with
    | text s => simp [addText_concat_text, symbols, FormatPart.symbols]
    | gap a => simp [addText_concat_gap, symbols, FormatPart.symbols]

/-- Symbols that are pushed one by one are what the format text says afterwards, and it stays
normal. -/
theorem foldl_pushSymbol (xs : List (Char ⊕ AttributeRef)) (h : f.IsNormal) :
    (xs.foldl pushSymbol f).IsNormal ∧ (xs.foldl pushSymbol f).symbols = f.symbols ++ xs := by
  induction xs generalizing f with
  | nil => exact ⟨h, (List.append_nil _).symm⟩
  | cons x xs ih =>
    have hx : (f.pushSymbol x).IsNormal := by
      cases x with
      | inl c => exact h.pushText (String.singleton c)
      | inr a => exact h.pushGap a
    obtain ⟨hnormal, hsymbols⟩ := ih hx
    refine ⟨hnormal, ?_⟩
    rw [List.foldl_cons, hsymbols, symbols_pushSymbol, List.append_assoc, List.singleton_append]

end

theorem render_push (fill : AttributeRef → String) (f : FormatText) (push : Push) :
    (f.push push).render fill = f.render fill ++ push.render fill := by
  cases push with
  | text t => exact render_pushText
  | gap a => exact render_pushGap
  | format g => exact render_append
  | resolution r => exact render_pushResolution

theorem gaps_push (f : FormatText) (push : Push) : (f.push push).gaps = f.gaps ++ push.gaps := by
  cases push with
  | text t => simp [FormatText.push, Push.gaps]
  | gap a => exact gaps_pushGap f a
  | format g => exact gaps_append
  | resolution r => exact gaps_pushResolution

/-- The text of what is pushed is the concatenation of the texts pushed. -/
theorem render_pushed (fill : AttributeRef → String) (pushes : List Push) :
    (pushed pushes).render fill = String.join (pushes.map (Push.render fill)) := by
  have hrest (pushes : List Push) (f : FormatText) : (pushes.foldl push f).render fill =
      f.render fill ++ String.join (pushes.map (Push.render fill)) := by
    induction pushes generalizing f with
    | nil => simp
    | cons push pushes ih =>
      rw [List.foldl_cons, ih, render_push, List.map_cons, String.join_cons, String.append_assoc]
  rw [pushed, hrest, render_empty, String.empty_append]

theorem gaps_pushed (pushes : List Push) : (pushed pushes).gaps = pushes.flatMap Push.gaps := by
  have hrest (pushes : List Push) (f : FormatText) :
      (pushes.foldl push f).gaps = f.gaps ++ pushes.flatMap Push.gaps := by
    induction pushes generalizing f with
    | nil => simp
    | cons push pushes ih =>
      rw [List.foldl_cons, ih, gaps_push, List.flatMap_cons, List.append_assoc]
  rw [pushed, hrest, gaps_empty, List.nil_append]

/-- The format text that pushes make of nothing is the one that is normal and says what was pushed.
So pushes make the same format text exactly when they push the same characters and gaps in the same
order. With its gaps filled its text is that of all pushes in a row, and it stands for a value, with
that text, exactly when no gap was pushed. -/
theorem pushed_normal_form (pushes : List Push) :
    (∀ f, f = pushed pushes ↔ f.IsNormal ∧ f.symbols = pushes.flatMap Push.symbols) ∧
    (∀ others, pushed others = pushed pushes ↔
      others.flatMap Push.symbols = pushes.flatMap Push.symbols) ∧
    (∀ fill, (pushed pushes).render fill = String.join (pushes.map (Push.render fill))) ∧
    (pushed pushes).toResolution =
      if ∀ push ∈ pushes, push.gaps = [] then
        .resolved (.str (String.join (pushes.map (Push.render AttributeRef.display))))
      else .deferred (.format (pushed pushes)) := by
  have hform (pushes : List Push) : (pushed pushes).IsNormal ∧
      (pushed pushes).symbols = pushes.flatMap Push.symbols := by
    rw [pushed_eq_foldl]
    exact foldl_pushSymbol _ isNormal_empty
  refine ⟨fun f => ⟨?_, ?_⟩, fun others => ⟨fun h => ?_, fun h => ?_⟩,
    fun fill => render_pushed fill pushes, ?_⟩
  · rintro rfl
    exact hform pushes
  · rintro ⟨hnormal, hsymbols⟩
    rw [← hnormal.append_empty, append_eq_foldl, hsymbols, pushed_eq_foldl]
  · rw [← (hform others).2, h, (hform pushes).2]
  · rw [pushed_eq_foldl, h, pushed_eq_foldl]
  · have hliteral : (pushed pushes).isLiteral = true ↔ ∀ push ∈ pushes, push.gaps = [] := by
      rw [isLiteral_iff, gaps_pushed, List.flatMap_eq_nil_iff]
    rw [toResolution, if_congr hliteral rfl rfl, display, render_pushed]

example : pushed [.text "http://", .gap ⟨"vm", "ip"⟩, .text ":", .text "", .text "8080"] =
    ⟨[.text "http://", .gap ⟨"vm", "ip"⟩, .text ":8080"]⟩ := by
  decide

end FormatText

end DeployPlan
