import ProcCheck.Proofs.Token.Continued

/-!
# Where a split stops

The split stops at the first text that starts with no piece: an open string, an open block comment,
or a unit that opens nothing. `Text.Stops` tells them apart by the text alone, with the message and
the length that mark them. What stands in front has its tokens, which were found without a look at
what stops the split; and behind any source that ends with a blank unit a text stops the split where
it would stop it alone.
-/

namespace ProcCheck

namespace Text

/-- A lexeme or a comment opens at the start of a text, be it closed or not. -/
def Opens (t : Text) : Prop :=
  (∃ kind spelling, kind ≠ TokenKind.endOfInput ∧ kind.spells spelling ∧ spelling <+: t) ∨
    [CodeUnit.quote] <+: t ∨ [('/' : CodeUnit), '/'] <+: t ∨ [('/' : CodeUnit), '*'] <+: t

/-- What stops the split at the start of a text, with its message and how many units it covers: a
string that is open up to the end of its line, a block comment that is open up to the end of the text,
or a unit that is not blank and opens nothing. -/
inductive Stops : Text → Text → Option Int → Prop
  | string {body after : Text} (inside : CodeUnit.quote ∉ body ∧ CodeUnit.lineFeed ∉ body)
      (ends : ∀ u ∈ after.head?, u = .lineFeed) :
      Stops (.quote :: (body ++ after)) "Unterminated string" (some (body.length + 1))
  | blockComment {body : Text} (unclosed : ¬ commentEnd <:+: body) :
      Stops ('/' :: '*' :: body) "Unterminated block comment" (some 2)
  | unit {u : CodeUnit} {after : Text} (visible : u.isBlank = false) (other : ¬ Opens (u :: after)) :
      Stops (u :: after) ("Unexpected character '" ++ [u] ++ "'") none

/-- A source ends inside a line comment. -/
def EndsInComment (source : Text) : Prop :=
  ∃ before body, source.Reaches before ('/' :: '/' :: body) ∧ CodeUnit.lineFeed ∉ body

end Text

/-! ## Ends of spellings -/

namespace CodeUnit

variable {u : CodeUnit}

theorem opensLexeme_of_isWordUnit (inWord : u.isWordUnit) : u.opensLexeme := by
  rw [opensLexeme, ← isWordUnit, inWord, Bool.true_or]

theorem opensLexeme_of_isDigit (digit : u.isDigit) : u.opensLexeme := by
  simp [opensLexeme, digit]

end CodeUnit

namespace TokenKind

variable {kind : TokenKind} {u : CodeUnit} {t : Text}

/-- Operators and punctuation apart, every spelling starts like a word, a number or a string. -/
theorem first_of_spells (noEnd : kind ≠ .endOfInput) (spells : kind.spells (u :: t)) :
    u.opensLexeme ∨ (u :: t, kind) ∈ fixed := by
  by_cases closed : kind.isOpen = false
  · rw [(spells_fixed closed).1 spells]
    refine (Piece.closed_cases closed noEnd).imp (fun reserved => ?_) id
    have words : ∀ entry ∈ keywords, entry.1.head?.any (·.opensLexeme) := by decide
    simpa [← (spells_fixed closed).1 spells] using words _ reserved
  · left
    cases kind with
    | identifier =>
      have word := Text.wordUnits_of_isWord (isWord_of_spells spells)
      exact CodeUnit.opensLexeme_of_isWordUnit (word u List.mem_cons_self)
    | stringLiteral =>
      obtain ⟨body, same, -⟩ := Text.isQuoted_cases (t := u :: t) spells
      rw [(List.cons.inj same).1]
      decide
    | intLiteral =>
      simp only [TokenKind.spells, Text.isWhole, Bool.and_eq_true, List.all_cons] at spells
      exact CodeUnit.opensLexeme_of_isDigit spells.2.1
    | floatLiteral =>
      obtain ⟨whole, fraction, same, digits, -⟩ := Text.isPointed_cases (t := u :: t) spells
      cases whole with
      | nil => cases digits
      | cons v whole =>
        simp only [Text.isWhole, Bool.and_eq_true, List.all_cons] at digits
        rw [(List.cons.inj same).1]
        exact CodeUnit.opensLexeme_of_isDigit digits.2.1
    | _ => exact absurd rfl closed

/-- No spelling ends with a blank unit. -/
theorem last_of_spells (noEnd : kind ≠ .endOfInput) (spells : kind.spells (t ++ [u])) :
    u.isBlank = false := by
  by_cases closed : kind.isOpen = false
  · have lasts : ∀ entry ∈ keywords ++ fixed, entry.1.getLast?.any (·.isBlank) = false := by decide
    have entry := lasts _ (List.mem_append.2 (Piece.closed_cases closed noEnd))
    simpa [← (spells_fixed closed).1 spells] using entry
  · refine CodeUnit.isBlank_of_opensLexeme ?_
    cases kind with
    | identifier =>
      have word := Text.wordUnits_of_isWord (isWord_of_spells spells)
      exact CodeUnit.opensLexeme_of_isWordUnit (word u (by simp))
    | stringLiteral =>
      obtain ⟨body, same, -⟩ := Text.isQuoted_cases spells
      rw [← List.cons_append] at same
      rw [List.singleton_inj.1 (List.append_inj' same rfl).2]
      decide
    | intLiteral =>
      simp only [TokenKind.spells, Text.isWhole, Bool.and_eq_true, List.all_append, List.all_cons]
        at spells
      exact CodeUnit.opensLexeme_of_isDigit spells.2.2.1
    | floatLiteral =>
      obtain ⟨whole, fraction, same, -, digits⟩ := Text.isPointed_cases spells
      rcases List.eq_nil_or_concat' fraction with rfl | ⟨front, v, rfl⟩
      · cases digits
      rw [← List.cons_append, ← List.append_assoc] at same
      rw [List.singleton_inj.1 (List.append_inj' same rfl).2]
      simp only [Text.isWhole, Bool.and_eq_true, List.all_append, List.all_cons] at digits
      exact CodeUnit.opensLexeme_of_isDigit digits.2.2.1
    | _ => exact absurd rfl closed

end TokenKind

/-! ## Texts that stop the split -/

namespace Text

variable {u : CodeUnit} {rest t : Text}

theorem opens_iff : Opens (u :: rest) ↔ u.opensLexeme ∨ (Piece.fixed? (u :: rest)).isSome := by
  constructor
  · rintro (⟨kind, spelling, noEnd, spells, starts⟩ | quote | line | block)
    · obtain ⟨v, taken, rfl⟩ := TokenKind.spells_nonempty noEnd spells
      obtain ⟨rfl, after, rfl⟩ := List.cons_prefix_cons.1 starts
      refine (TokenKind.first_of_spells noEnd spells).imp_right fun member => ?_
      rw [Piece.fixed?, Option.isSome_map, List.find?_isSome]
      exact ⟨_, member, List.isPrefixOf_iff_prefix.2 starts⟩
    · obtain ⟨rfl, -⟩ := List.cons_prefix_cons.1 quote
      exact .inl (by decide)
    · obtain ⟨rfl, -⟩ := List.cons_prefix_cons.1 line
      exact .inr rfl
    · obtain ⟨rfl, -⟩ := List.cons_prefix_cons.1 block
      exact .inr rfl
  · rintro (opens | found)
    · simp only [CodeUnit.opensLexeme, Bool.or_eq_true, beq_iff_eq] at opens
      rcases opens with (start | digit) | rfl
      · have isWord : Text.isWord [u] := by simp [Text.isWord, start]
        have ends : Option.any CodeUnit.isWordUnit (List.head? []) = false := rfl
        have noEnd : TokenKind.ofWord [u] ≠ .endOfInput := (Piece.endsAt_ofWord ends).2
        exact .inl ⟨_, [u], noEnd, Piece.spells_ofWord isWord, rest, rfl⟩
      · have whole : Text.isWhole [u] := by simp [Text.isWhole, digit]
        exact .inl ⟨.intLiteral, [u], by decide, whole, rest, rfl⟩
      · exact .inr (.inl ⟨rest, rfl⟩)
    · rw [Piece.fixed?, Option.isSome_map, List.find?_isSome] at found
      obtain ⟨⟨spelling, kind⟩, member, starts⟩ := found
      have entries : ∀ entry ∈ TokenKind.fixed, entry.2 ≠ .endOfInput ∧
          entry.2.spells entry.1 := by
        decide
      obtain ⟨noEnd, spells⟩ := entries _ member
      exact .inl ⟨kind, spelling, noEnd, spells, List.isPrefixOf_iff_prefix.1 starts⟩

/-- A visible unit that opens nothing is refused. -/
theorem atHead_of_not_opens (visible : u.isBlank = false) (other : ¬ Opens (u :: rest)) :
    Piece.atHead u rest = .error (.unexpectedUnit u) := by
  have none : ¬ u.opensLexeme ∧ Piece.fixed? (u :: rest) = none := by
    simpa [opens_iff] using other
  have noSlash : u ≠ '/' := by
    rintro rfl
    cases none.2
  have noLexeme := none.1
  simp only [CodeUnit.opensLexeme, Bool.or_eq_true, beq_iff_eq, not_or] at noLexeme
  rw [Piece.atHead, if_neg (by simp [visible]), if_neg (by simp [noSlash]),
    if_neg (by simp [noSlash]), none.2]
  simp only [noLexeme, if_false, Bool.false_eq_true]

/-- What is refused as unexpected is not blank and opens nothing. -/
theorem not_opens_of_atHead {v : CodeUnit}
    (refused : Piece.atHead u rest = .error (.unexpectedUnit v)) :
    u.isBlank = false ∧ ¬ Opens (u :: rest) := by
  have starts := Piece.starts u rest
  rw [refused] at starts
  cases starts with
  | blockComment _ _ same => cases (Piece.blockComment_refused same).1
  | stringLiteral _ same => cases (Piece.stringLiteral_refused same).1
  | nothing visible noFixed noQuote noWord noDigit =>
    refine ⟨visible, ?_⟩
    simp [opens_iff, CodeUnit.opensLexeme, noFixed, noQuote, noWord, noDigit]

/-- An open string is refused. -/
theorem atHead_openString {body after : Text}
    (inside : CodeUnit.quote ∉ body ∧ CodeUnit.lineFeed ∉ body)
    (ends : ∀ u ∈ after.head?, u = .lineFeed) :
    Piece.atHead .quote (body ++ after) = .error .unterminatedString := by
  have plain : body.all fun v => v ≠ .quote ∧ v ≠ .lineFeed := by
    rw [List.all_eq_true]
    intro v member
    have noQuote : v ≠ .quote := fun same => inside.1 (same ▸ member)
    have noFeed : v ≠ .lineFeed := fun same => inside.2 (same ▸ member)
    simp [noQuote, noFeed]
  have stop : after.head?.any (fun v => decide (v ≠ .quote ∧ v ≠ .lineFeed)) = false := by
    cases after with
    | nil => rfl
    | cons v after => simp [ends v rfl]
  have unclosed : ¬ Text.startsWith after .quote := by
    cases after with
    | nil => decide
    | cons v after =>
      obtain rfl := ends v rfl
      exact fun quote => absurd (Option.some.inj (beq_iff_eq.1 quote)) (by decide)
  rw [Piece.atHead_of_opensLexeme (by decide), if_pos rfl, Piece.stringLiteral,
    Piece.takeWhile_append_eq plain stop, List.drop_left, if_neg unclosed]

/-- An open block comment is refused. -/
theorem atHead_openComment {body : Text} (unclosed : ¬ commentEnd <:+: body) :
    Piece.atHead '/' ('*' :: body) = .error .unterminatedComment := by
  rw [Piece.atHead_blockComment, Piece.blockComment, Piece.commentEnd?_eq_none.2 unclosed]

variable {message : Text} {len : Option Int} {fault : Fault}

/-- A text that stops the split is refused, with its message and its length. -/
theorem Stops.atHead (stops : Stops t message len) : ∃ u rest fault, t = u :: rest ∧
    Piece.atHead u rest = .error fault ∧ ∀ pos, (fault.locate pos rest).message = message ∧
      (fault.locate pos rest).location = ⟨pos.line, pos.col, len⟩ := by
  cases stops with
  | @string body after inside ends =>
    refine ⟨_, _, _, rfl, atHead_openString inside ends, fun pos => ⟨rfl, ?_⟩⟩
    rw [Fault.locate, takeWhile_line inside.2 ends]
  | blockComment unclosed =>
    exact ⟨_, _, _, rfl, atHead_openComment unclosed, fun pos => ⟨rfl, rfl⟩⟩
  | unit visible other =>
    exact ⟨_, _, _, rfl, atHead_of_not_opens visible other, fun pos => ⟨rfl, rfl⟩⟩

/-- What is refused stops the split, with the message and the length of the error. -/
theorem stops_of_atHead (refused : Piece.atHead u rest = .error fault) (pos : Position) :
    Stops (u :: rest) (fault.locate pos rest).message (fault.locate pos rest).location.len := by
  rcases Piece.atHead_refused refused with ⟨rfl, -⟩ | ⟨rfl, rfl, body, after, rfl, inside, ends⟩ |
    ⟨rfl, rfl, body, rfl, unclosed⟩
  · obtain ⟨visible, other⟩ := not_opens_of_atHead refused
    exact .unit visible other
  · rw [Fault.locate, takeWhile_line inside.2 ends]
    exact .string inside ends
  · exact .blockComment (Piece.commentEnd?_eq_none.1 unclosed)

/-! ## Behind a blank unit -/

variable {source front : Text} {tokens found : List Token}

/-- No line comment is open at the end of a line. -/
theorem not_endsInComment_lineFeed : ¬ EndsInComment (t ++ [.lineFeed]) := by
  rintro ⟨before, body, reached, inside⟩
  have last := congrArg List.getLast? reached.whole
  rw [List.getLast?_concat, List.getLast?_append_cons, List.getLast?_cons_cons] at last
  cases body with
  | nil => exact absurd (Option.some.inj last) (by decide)
  | cons u body =>
    rw [List.getLast?_cons_cons] at last
    exact inside (List.mem_of_getLast? last.symm)

/-- A blank unit at the end is a piece of its own, unless a line comment goes on to it. -/
theorem Splits.blank_last {w : CodeUnit} (split : source.Splits (t ++ [w]) found [])
    (isBlank : w.isBlank) (noComment : ¬ source.EndsInComment) : source.Splits t found [w] := by
  generalize whole : t ++ [w] = all at split
  generalize nothing : ([] : Text) = rest at split
  cases split with
  | start => simp at whole
  | @step before taken after found u kind? split piece =>
    -- The last piece ends with the blank unit. No spelling does so, and no closed comment.
    subst nothing
    have last : (u :: taken).getLast? = some w := by
      rw [← List.getLast?_concat (l := t), whole, List.getLast?_append, List.getLast?_cons,
        Option.some_or]
    cases kind? with
    | some kind =>
      obtain ⟨noEnd, spells, -⟩ := Piece.stands_of_atHead piece
      obtain ⟨front, same⟩ := List.getLast?_eq_some_iff.1 last
      rw [same] at spells
      rw [TokenKind.last_of_spells noEnd spells] at isBlank
      cases isBlank
    | none =>
      rw [Piece.token?, Option.map_none, Option.toList_none, List.append_nil]
      rw [List.append_nil] at split
      cases Piece.skipped_of_atHead piece with
      | blank =>
        obtain ⟨rfl, same⟩ := List.append_inj' whole rfl
        rwa [same]
      | @lineComment body inside => exact absurd ⟨before, body, split.reaches, inside⟩ noComment
      | @blockComment body =>
        rw [← List.cons_append, ← List.cons_append, List.getLast?_append] at last
        obtain rfl := Option.some.inj last
        cases isBlank

/-- Behind a source that is empty or ends with a blank unit, no line comment being open there, the
split goes on where the source ends. -/
theorem splits_behind (split : front.tokens = .ok tokens)
    (ends : front = [] ∨ (∃ t w, front = t ++ [w] ∧ w.isBlank) ∧ ¬ front.EndsInComment)
    (rear : Text) : ∃ found, Splits (front ++ rear) front found rear := by
  obtain ⟨found, splits, -⟩ := splits_of_tokens split
  rcases ends with rfl | ⟨⟨t, w, rfl, isBlank⟩, noComment⟩
  · exact ⟨[], .start⟩
  · have again : Splits (t ++ w :: rear) t found (w :: rear) :=
      (splits.blank_last isBlank noComment).again (.blank isBlank)
    rw [← List.singleton_append, ← List.append_assoc] at again
    exact ⟨found, again.blank isBlank⟩

/-! ## Lexical errors -/

/-- A source that is refused is split up to the place of the error: the text in front of it has for
its tokens those found before the error and an end token at its place, and the text behind stops the
split with the message and the length of the error. Conversely, where a text that stops the split
stands behind a source that has tokens and is empty or ends with a blank unit outside any line comment,
the whole is refused with its message and its length, at the place where it starts. -/
theorem refused_exactly (source : Text) :
    (∀ e, source.tokens = .error e → ∃ before after found, source = before ++ after ∧
      ⟨e.location.line, e.location.col⟩ = Position.behind before ∧
      source.Splits before found after ∧
      before.tokens = .ok (found ++ [⟨.endOfInput, [], .behind before⟩]) ∧
      Stops after e.message e.location.len) ∧
    ∀ front rear tokens message len, source = front ++ rear → front.tokens = .ok tokens →
      (front = [] ∨ (∃ t w, front = t ++ [w] ∧ w.isBlank) ∧ ¬ front.EndsInComment) →
      Stops rear message len → ∃ e, source.tokens = .error e ∧ e.message = message ∧
        e.location = ⟨(Position.behind front).line, (Position.behind front).col, len⟩ := by
  refine ⟨fun e refused => ?_, ?_⟩
  · obtain ⟨before, found, u, tail, fault, split, stuck, rfl⟩ := splits_of_refused refused
    have alone := split.again .nil
    rw [List.append_nil] at alone
    refine ⟨before, u :: tail, found, split.whole, ?_, split, alone.tokens_eq,
      stops_of_atHead stuck _⟩
    cases fault <;> rfl
  · rintro front rear tokens message len rfl split ends stops
    obtain ⟨found, reached⟩ := splits_behind split ends rear
    obtain ⟨u, rest, fault, rfl, stuck, marks⟩ := stops.atHead
    exact ⟨_, reached.tokens_error stuck, marks _⟩

/-- The string behind a comment and a line feed is open, and the error is at its quote. -/
theorem refused_exactly_below : ∃ e, Text.tokens "a // b\n\"c;" = .error e ∧
    e.message = "Unterminated string" ∧ e.location = ⟨2, 1, some 3⟩ ∧
    ∃ before after found, Text.ofString "a // b\n\"c;" = before ++ after ∧
      ⟨e.location.line, e.location.col⟩ = Position.behind before ∧
      Splits "a // b\n\"c;" before found after ∧
      before.tokens = .ok (found ++ [⟨.endOfInput, [], .behind before⟩]) ∧
      Stops after e.message e.location.len := by
  have split : Text.tokens "a // b\n" =
      .ok [⟨.identifier, "a", ⟨1, 1⟩⟩, ⟨.endOfInput, [], ⟨2, 1⟩⟩] := by
    decide +kernel
  have noComment : ¬ EndsInComment "a // b\n" := not_endsInComment_lineFeed (t := "a // b")
  have stops : Stops "\"c;" "Unterminated string" (some 3) :=
    .string (show CodeUnit.quote ∉ Text.ofString "c;" ∧ CodeUnit.lineFeed ∉ Text.ofString "c;" by
      decide) (show ∀ u ∈ List.head? [], u = CodeUnit.lineFeed by simp)
  obtain ⟨e, refused, message, location⟩ := (refused_exactly "a // b\n\"c;").2 "a // b\n" "\"c;"
    _ _ _ rfl split (.inr ⟨⟨"a // b", .lineFeed, rfl, by decide⟩, noComment⟩) stops
  exact ⟨e, refused, message, location, (refused_exactly "a // b\n\"c;").1 e refused⟩

end Text

end ProcCheck
