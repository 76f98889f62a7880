import ProcCheck.Proofs.Token.Reached

/-!
# Pieces in front of other texts

What stands at the start of a text is found without looking far behind it: a spelling must not go on
(`TokenKind.endsAt`), and a line comment must be at the end of its line. `Text.Continues` says of two
texts that where the one may stand behind a piece the other may. So a split of the pieces in front of
the one is a split of them in front of the other.
-/

namespace ProcCheck

/-! ## Gaps -/

namespace Piece

variable {u : CodeUnit} {taken after after' : Text}

theorem commentEnd?_append {body : Text}
    (inside : ¬ Text.commentEnd <:+: body ++ [('*' : CodeUnit)]) (after : Text) :
    commentEnd? (body ++ Text.commentEnd ++ after) = some (body.length + 2) := by
  induction body with
  | nil => rfl
  | cons v body ih =>
    rw [List.cons_append, List.infix_cons_iff, not_or] at inside
    have here : ¬ (v = '*' ∧ Text.startsWith (body ++ Text.commentEnd ++ after) '/') := by
      rintro ⟨rfl, slash⟩
      refine inside.1 (List.cons_prefix_cons.2 ⟨rfl, ?_⟩)
      obtain ⟨rest, same⟩ := Text.startsWith_iff.1 slash
      cases body with
      | nil => exact absurd (List.cons.inj same).1 (by decide)
      | cons w body =>
        obtain ⟨rfl, -⟩ := List.cons.inj same
        exact List.cons_prefix_cons.2 ⟨rfl, List.nil_prefix⟩
    rw [List.cons_append, List.cons_append, commentEnd?, if_neg here, ih inside.2]
    rfl

theorem commentEnd?_eq_none {t : Text} : commentEnd? t = none ↔ ¬ Text.commentEnd <:+: t := by
  constructor
  · intro unclosed closed
    induction t with
    | nil => exact absurd closed.length_le (by decide)
    | cons v tail ih =>
      rw [commentEnd?] at unclosed
      split at unclosed
      case isTrue => cases unclosed
      case isFalse later =>
        rcases List.infix_cons_iff.1 closed with front | closed
        · obtain ⟨rfl, slash⟩ := List.cons_prefix_cons.1 front
          obtain ⟨rest, rfl⟩ := slash
          exact later ⟨rfl, rfl⟩
        · exact ih (Option.map_eq_none_iff.1 unclosed) closed
  · intro unclosed
    cases closed : commentEnd? t with
    | none => rfl
    | some n =>
      obtain ⟨body, after, rfl, -⟩ := commentEnd?_eq_some closed
      exact absurd ⟨body, after, rfl⟩ unclosed

theorem atHead_blank (isBlank : u.isBlank) (rest : Text) : atHead u rest = .ok ⟨none, 0⟩ := by
  rw [atHead, if_pos isBlank]

/-- Behind `/*` there is a block comment. -/
theorem atHead_blockComment (rest : Text) : atHead '/' ('*' :: rest) = blockComment rest := by
  have notBlank : ¬ CodeUnit.isBlank '/' = true := by decide
  have noLine : ¬ (('/' : CodeUnit) = '/' ∧ Text.startsWith ('*' :: rest) '/') := by
    rintro ⟨-, slash⟩
    exact absurd (Option.some.inj (beq_iff_eq.1 slash)) (by decide)
  rw [atHead, if_neg notBlank, if_neg noLine, if_pos ⟨rfl, rfl⟩, List.drop_one, List.tail_cons]

/-- What is skipped is found as a gap. -/
theorem atHead_of_skipped (skipped : Text.Skipped after (u :: taken)) :
    atHead u (taken ++ after) = .ok ⟨none, taken.length⟩ := by
  cases skipped with
  | blank isBlank => exact atHead_blank isBlank _
  | @lineComment body inside ends =>
    have notBlank : ¬ CodeUnit.isBlank '/' = true := by decide
    have slash : ('/' : CodeUnit) ≠ .lineFeed := by decide
    rw [atHead, if_neg notBlank, if_pos ⟨rfl, rfl⟩, lineComment, List.cons_append,
      List.takeWhile_cons_of_pos (by simpa using slash), Text.takeWhile_line inside ends,
      List.length_cons]
  | @blockComment body inside =>
    rw [List.cons_append, atHead_blockComment, blockComment, commentEnd?_append inside]
    simp [Text.commentEnd]

/-- What is found as a gap is skipped. -/
theorem skipped_of_atHead (found : atHead u (taken ++ after) = .ok ⟨none, taken.length⟩) :
    Text.Skipped after (u :: taken) := by
  obtain ⟨-, taken', after', same, length, skipped⟩ := atHead_skippedAt found rfl
  obtain ⟨rfl, rfl⟩ := List.append_inj same length
  exact skipped

/-- A token that is found stands where it is. -/
theorem stands_of_atHead {kind : TokenKind}
    (found : atHead u (taken ++ after) = .ok ⟨some kind, taken.length⟩) :
    Stands (some kind) (u :: taken) after := by
  obtain ⟨taken', after', same, length, stands⟩ := atHead_foundAt found
  obtain ⟨rfl, rfl⟩ := List.append_inj same length
  exact stands

end Piece

/-! ## Texts that continue alike -/

/-- No spelling goes on at the end of a text. -/
theorem TokenKind.endsAt_nil (kind : TokenKind) : kind.endsAt [] := by
  cases kind with
  | operator op => cases op <;> rfl
  | _ => rfl

/-- No spelling goes on with blank space. -/
theorem TokenKind.endsAt_blank {u : CodeUnit} (isBlank : u.isBlank) (kind : TokenKind) (rest : Text) :
    kind.endsAt (u :: rest) := by
  have noLexeme : u.opensLexeme = false := by
    by_contra opens
    rw [CodeUnit.isBlank_of_opensLexeme (by simpa using opens)] at isBlank
    cases isBlank
  simp only [CodeUnit.opensLexeme, Bool.or_eq_false_iff] at noLexeme
  have noDigit : u.isDigit = false := noLexeme.1.2
  have noWord : u.isWordUnit = false := by
    rw [CodeUnit.isWordUnit, noLexeme.1.1, noDigit, Bool.or_false]
  have other (sign : CodeUnit) (notBlank : sign.isBlank = false) :
      Text.startsWith (u :: rest) sign = false := by
    rw [Text.startsWith, List.head?_cons, beq_eq_false_iff_ne]
    rintro same
    obtain rfl := Option.some.inj same
    rw [isBlank] at notBlank
    cases notBlank
  cases kind with
  | operator op =>
    cases op <;> simp [endsAt, other '=' rfl, other '/' rfl, other '*' rfl]
  | _ => simp [endsAt, noWord, noDigit, other '=' rfl, other '.' rfl]

namespace Text

variable {after after' : Text}

/-- Where a piece may stand in front of `after`, it may stand in front of `after'`. -/
structure Continues (after after' : Text) : Prop where
  ends (kind : TokenKind) (ends : kind.endsAt after) : kind.endsAt after'
  line (ends : ∀ u ∈ after.head?, u = .lineFeed) : ∀ u ∈ after'.head?, u = .lineFeed

namespace Continues

/-- Every piece may stand at the end of a text. -/
theorem nil : Continues after [] where
  ends kind _ := TokenKind.endsAt_nil kind
  line _ := by simp

/-- Every piece may stand at the end of a line. -/
theorem lineFeed : Continues after (.lineFeed :: after') where
  ends kind _ := TokenKind.endsAt_blank (by decide) kind after'
  line _ := by simp

/-- Behind a blank unit there may be anything. -/
theorem blank {u : CodeUnit} (isBlank : u.isBlank) : Continues (u :: after) (u :: after') where
  ends kind _ := TokenKind.endsAt_blank isBlank kind after'
  line ends := by simpa using ends

/-- Units in front of two texts that continue alike. -/
theorem append (alike : Continues after after') (more : Text) :
    Continues (more ++ after) (more ++ after') := by
  match more with
  | [] => exact alike
  | [u] =>
    refine ⟨fun kind ends => ?_, fun ends => by simpa using ends⟩
    -- Only a number looks two units ahead, for the digit behind a point.
    have digit := alike.ends .floatLiteral
    cases kind with
    | intLiteral =>
      simp only [TokenKind.endsAt, List.singleton_append, List.head?_cons, List.drop_one,
        List.tail_cons, Bool.and_eq_true, Bool.not_eq_true', Bool.and_eq_false_iff] at ends digit ⊢
      exact ⟨ends.1, ends.2.imp_right digit⟩
    | operator op => cases op <;> exact ends
    | _ => exact ends
  | u :: v :: more =>
    refine ⟨fun kind ends => ?_, fun ends => by simpa using ends⟩
    cases kind with
    | operator op => cases op <;> exact ends
    | _ => exact ends

end Continues

/-- What is skipped in front of a text is skipped in front of one that continues alike. -/
theorem Skipped.again {piece : Text} (skipped : Skipped after piece)
    (alike : Continues after after') : Skipped after' piece := by
  cases skipped with
  | blank isBlank => exact .blank isBlank
  | lineComment inside ends => exact .lineComment inside (alike.line ends)
  | blockComment inside => exact .blockComment inside

/-- A piece is found again in front of a text that continues alike. -/
theorem Continues.atHead {u : CodeUnit} {taken : Text} {kind? : Option TokenKind}
    (alike : Continues after after')
    (found : Piece.atHead u (taken ++ after) = .ok ⟨kind?, taken.length⟩) :
    Piece.atHead u (taken ++ after') = .ok ⟨kind?, taken.length⟩ := by
  cases kind? with
  | none => exact Piece.atHead_of_skipped ((Piece.skipped_of_atHead found).again alike)
  | some kind =>
    obtain ⟨noEnd, spells, ends⟩ := Piece.stands_of_atHead found
    exact Piece.atHead_of_stands ⟨noEnd, spells, alike.ends kind ends⟩

/-- What is skipped adds no token to the split. -/
theorem Splits.skip {source before piece : Text} {found : List Token}
    (split : source.Splits before found (piece ++ after))
    (skipped : Skipped after piece) : source.Splits (before ++ piece) found after := by
  cases piece with
  | nil => cases skipped
  | cons u taken =>
    have next := split.step (Piece.atHead_of_skipped skipped)
    rwa [Piece.token?, Option.map_none, Option.toList_none, List.append_nil] at next

/-- Nor does a blank unit. -/
theorem Splits.blank {source before : Text} {found : List Token} {u : CodeUnit}
    (split : source.Splits before found (u :: after)) (isBlank : u.isBlank) :
    source.Splits (before ++ [u]) found after := by
  rw [← List.singleton_append] at split
  exact split.skip (.blank isBlank)

/-- The pieces in front of a text are split alike in front of one that continues alike. -/
theorem Splits.again {source before : Text} {found : List Token}
    (split : source.Splits before found after) (alike : Continues after after') :
    (before ++ after').Splits before found after' := by
  induction split generalizing after' with
  | start => exact .start
  | @step before taken after found u kind? _ piece ih =>
    have front := ih (alike.append (u :: taken))
    rw [List.append_assoc]
    exact front.step (alike.atHead piece)

end Text

end ProcCheck
