import ProcCheck.Proofs.Report.Unstyled

/-!
# Stylings that keep their texts

A report leaves it to a `Styling` how a text is shown. `Styling.Wraps` is all that is asked of one
with colours: a text stands between control sequences and its line breaks interrupt them.
`Styling.IsOff` is all that is asked of one without. Both keep their texts: without its control
sequences a text in a style is the text that was styled. `Styling.terminal` is a styling with
colours, and `Styling.plain` is the only one without.
-/

namespace ProcCheck

open Text

/-- The second text is the first with its style interrupted at every line break: the style is
switched off before the break and on again behind it. A carriage return before the line feed may
belong to the break. Behind a control sequence that the text has of its own, which may have switched
the style off, there may be sequences that switch it on again. -/
inductive Interrupted (on off : List Nat) : Text → Text → Prop
  | nil : Interrupted on off [] []
  | unit {u : CodeUnit} {t t' : Text} (other : u ≠ .lineFeed) :
    Interrupted on off t t' → Interrupted on off (u :: t) (u :: t')
  | lineBreak {feed t t' : Text} (isBreak : feed = [.lineFeed] ∨ feed = [0x0D, .lineFeed]) :
    Interrupted on off t t' →
      Interrupted on off (feed ++ t)
        (controlSequences off ++ (feed ++ (controlSequences on ++ t')))
  | reopened (n : Nat) (ns : List Nat) {t t' : Text} :
    Interrupted on off t t' →
      Interrupted on off (controlSequence n ++ t)
        (controlSequence n ++ (controlSequences ns ++ t'))

namespace Styling

/-- Colours are off: a text stays as it is. -/
def IsOff (s : Styling) : Prop := ∀ style t, s.apply style t = t

/-- Colours are on: a style has control sequences that switch it on and off. A text stands between
them and its line breaks interrupt them; an empty text needs none. -/
structure Wraps (s : Styling) : Prop where
  empty : ∀ style, s.apply style [] = []
  wrapped : ∀ style, ∃ on off : List Nat, ∀ t, t ≠ [] → ∃ t', Interrupted on off t t' ∧
    s.apply style t = controlSequences on ++ t' ++ controlSequences off

/-- Without its control sequences a text in a style is the text itself, whatever stands apart
behind it. -/
def Keeps (s : Styling) : Prop :=
  ∀ style t {rest}, IsApart rest → unstyled (s.apply style t ++ rest) = unstyled t ++ unstyled rest

variable {s : Styling}

/-! ## Without colours -/

theorem IsOff.eq_plain (off : s.IsOff) : s = plain := by
  have same : s.apply = plain.apply := by
    funext style t
    exact off style t
  cases s
  exact congrArg Styling.mk same

theorem plain_isOff : plain.IsOff := fun _ _ => rfl

theorem plain_keeps : plain.Keeps := fun _ t _ apart => unstyled_append apart t

/-! ## With colours -/

/-- What interrupts a style is taken out again. The induction is over the text in the style; what
stands before it is arbitrary, since its last units may begin a control sequence. -/
theorem unstyled_interrupted_append {on off : List Nat} {t t' rest : Text}
    (interrupted : Interrupted on off t t') (apart : IsApart rest) (before : Text) :
    unstyled (before ++ (t' ++ rest)) = unstyled (before ++ t) ++ unstyled rest := by
  induction interrupted generalizing before with
  | nil => simpa using unstyled_append apart before
  | @unit u t t' other _ ih => simpa using ih (before ++ [u])
  | @lineBreak feed t t' isBreak _ ih =>
    have plain : IsPlain feed := by
      rcases isBreak with rfl | rfl <;> decide
    have feed_apart (t : Text) : IsApart (feed ++ t) := by
      rcases isBreak with rfl | rfl <;> exact isApart_cons (by decide) _
    have behind : unstyled (t' ++ rest) = unstyled t ++ unstyled rest := ih []
    have whole : unstyled (before ++ (feed ++ t)) = unstyled before ++ (feed ++ unstyled t) := by
      rw [unstyled_append (feed_apart t), unstyled_append_of_plain plain]
    simp only [List.append_assoc]
    rw [unstyled_append (isApart_controlSequences_append off (feed_apart _)),
      unstyled_controlSequences_append, unstyled_append_of_plain plain,
      unstyled_controlSequences_append, behind, whole]
    simp only [List.append_assoc]
  | @reopened n ns t t' _ ih =>
    have sequence_apart (t : Text) : IsApart (controlSequence n ++ t) := isApart_cons (by decide) _
    have behind : unstyled (t' ++ rest) = unstyled t ++ unstyled rest := ih []
    simp only [List.append_assoc]
    rw [unstyled_append (sequence_apart _), unstyled_controlSequence_append,
      unstyled_controlSequences_append, behind, unstyled_append (sequence_apart t),
      unstyled_controlSequence_append, List.append_assoc]

theorem Wraps.keeps (wraps : s.Wraps) : s.Keeps := by
  intro style t rest apart
  by_cases empty : t = []
  · rw [empty, wraps.empty, unstyled, List.nil_append, List.nil_append]
  · obtain ⟨on, off, wrapped⟩ := wraps.wrapped style
    obtain ⟨t', interrupted, shown⟩ := wrapped t empty
    have inside := unstyled_interrupted_append interrupted
      (isApart_controlSequences_append off apart) []
    rw [List.nil_append, List.nil_append, unstyled_controlSequences_append] at inside
    rw [shown, List.append_assoc, List.append_assoc, unstyled_controlSequences_append, inside]

theorem interrupted_acrossLines (style : Style) (t : Text) :
    Interrupted (style.map Attribute.on) (style.reverse.map Attribute.off) t
      (style.acrossLines t) := by
  fun_induction Style.acrossLines style t with
  | case1 => exact .nil
  | case2 =>
    simpa [Style.opening, Style.closing] using Interrupted.lineBreak (.inl rfl) .nil
  | case3 u other => exact .unit other .nil
  | case4 v rest ih =>
    simpa [Style.opening, Style.closing] using Interrupted.lineBreak (.inl rfl) ih
  | case5 u v rest other pair ih =>
    obtain ⟨rfl, rfl⟩ := pair
    simpa [Style.opening, Style.closing] using Interrupted.lineBreak (.inr rfl) ih
  | case6 u v rest other noPair ih => exact .unit other ih

/-- A terminal has colours. -/
theorem terminal_wraps : terminal.Wraps where
  empty style := rfl
  wrapped style :=
    ⟨style.map Attribute.on, style.reverse.map Attribute.off, fun t some =>
      ⟨style.acrossLines t, interrupted_acrossLines style t, by
        simp [terminal, some, Style.opening, Style.closing]⟩⟩

namespace Keeps

theorem unstyled_apply (keeps : s.Keeps) (style : Style) (t : Text) :
    (s.apply style t).unstyled = t.unstyled := by
  have whole := keeps style t isApart_nil
  have nothing : unstyled [] = [] := by rw [unstyled]
  rwa [nothing, List.append_nil, List.append_nil] at whole

/-- A style that ends before a space. -/
theorem unstyled_apply_space (keeps : s.Keeps) (style : Style) (t rest : Text) :
    unstyled (s.apply style t ++ (ofString " " ++ rest)) =
      unstyled t ++ (ofString " " ++ unstyled rest) := by
  have space : IsPlain (ofString " ") := by decide
  have apart : IsApart (ofString " " ++ rest) := isApart_cons (by decide) rest
  rw [keeps style t apart, unstyled_append_of_plain space]

end Keeps

end Styling

end ProcCheck
