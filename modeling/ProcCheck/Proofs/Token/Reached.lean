import ProcCheck.Proofs.Token.Adjacent

/-!
# How far a split comes

A source is split piece by piece. `Text.Reaches` says which texts the split comes to, and
`Text.Splits` adds the tokens that it has found on the way. Every source is split up to a text that
starts with no piece, and that text alone decides about the source: if it is empty the tokens that
were found are those of the source, and else the source is refused there.
-/

namespace ProcCheck

/-- Some pieces, one after the other, can be taken off the front of a source: `before` is what they
are, and `rest` what is left. -/
inductive Text.Reaches (source : Text) : Text → Text → Prop
  | start : Reaches source [] source
  | step {before rest : Text} {u : CodeUnit} {piece : Piece}
      (reached : Reaches source before (u :: rest)) (found : Piece.atHead u rest = .ok piece) :
      Reaches source (before ++ u :: rest.take piece.more) (rest.drop piece.more)

theorem Text.Reaches.whole {source before rest : Text} (reached : source.Reaches before rest) :
    source = before ++ rest := by
  induction reached with
  | start => rfl
  | step _ _ ih => simpa using ih

/-! ## Tokens found on the way -/

/-- The token that a piece gives, if it is no gap. -/
def Piece.token? (kind? : Option TokenKind) (spelling : Text) (pos : Position) : List Token :=
  (kind?.map fun kind => ⟨kind, spelling, pos⟩).toList

/-- The pieces `before` can be taken off the front of a source, in front of `rest`, and give the
tokens `found`. -/
inductive Text.Splits (source : Text) : Text → List Token → Text → Prop
  | start : Splits source [] [] source
  | step {before taken after : Text} {found : List Token} {u : CodeUnit} {kind? : Option TokenKind}
      (split : Splits source before found (u :: (taken ++ after)))
      (piece : Piece.atHead u (taken ++ after) = .ok ⟨kind?, taken.length⟩) :
      Splits source (before ++ u :: taken)
        (found ++ Piece.token? kind? (u :: taken) (.behind before)) after

/-- A piece takes units off the text that it starts. -/
theorem Piece.atHead_taken {u : CodeUnit} {rest : Text} {piece : Piece}
    (found : atHead u rest = .ok piece) : ∃ taken after, rest = taken ++ after ∧
      atHead u (taken ++ after) = .ok ⟨piece.kind?, taken.length⟩ := by
  obtain ⟨taken, after, rfl, more, -⟩ := atHead_foundAt found
  refine ⟨taken, after, rfl, ?_⟩
  rw [found, ← more]

/-- A piece at the start of a text gives its token, and the text goes on behind it. -/
theorem tokensFrom_piece {u : CodeUnit} {taken after : Text} {kind? : Option TokenKind}
    (found : Piece.atHead u (taken ++ after) = .ok ⟨kind?, taken.length⟩) (pos : Position) :
    tokensFrom pos (u :: (taken ++ after)) =
      (tokensFrom (pos.after (u :: taken)) after).map (Piece.token? kind? (u :: taken) pos ++ ·) := by
  rw [tokensFrom.eq_def]
  simp only [found, List.take_left, List.drop_left]
  cases kind? with
  | none =>
    cases tokensFrom (pos.after (u :: taken)) after <;> rfl
  | some kind => rfl

namespace Text

variable {source before rest : Text} {found : List Token}

theorem Splits.reaches (split : source.Splits before found rest) : source.Reaches before rest := by
  induction split with
  | start => exact .start
  | @step before taken after found u kind? _ piece ih =>
    have reached := ih.step piece
    rwa [List.take_left, List.drop_left] at reached

theorem Splits.whole (split : source.Splits before found rest) : source = before ++ rest :=
  split.reaches.whole

/-- What a split comes to decides about the source: its tokens are those found so far, and behind
them the tokens of the rest. -/
theorem Splits.tokens (split : source.Splits before found rest) :
    source.tokens = (tokensFrom (.behind before) rest).map (found ++ ·) := by
  induction split with
  | start =>
    have origin : Position.behind [] = .origin := rfl
    rw [origin, Text.tokens]
    cases tokensFrom .origin source <;> rfl
  | @step before taken after found u kind? _ piece ih =>
    rw [ih, tokensFrom_piece piece, ← Position.behind_append]
    cases tokensFrom (.behind (before ++ u :: taken)) after <;> simp [Except.map]

/-- Every source is split up to its end, or up to a text that starts with no piece. -/
theorem exists_splits (source : Text) : ∃ before found rest, source.Splits before found rest ∧
    ∀ u tail, rest = u :: tail → ∃ fault, Piece.atHead u tail = .error fault := by
  suffices onwards : ∀ (n : Nat) {before rest : Text} {found : List Token}, rest.length = n →
      source.Splits before found rest → ∃ before found rest, source.Splits before found rest ∧
        ∀ u tail, rest = u :: tail → ∃ fault, Piece.atHead u tail = .error fault from
    onwards _ rfl .start
  intro n
  induction n using Nat.strongRecOn with
  | ind n ih =>
    intro before rest found length split
    cases rest with
    | nil => exact ⟨before, found, [], split, by simp⟩
    | cons u tail =>
      cases head : Piece.atHead u tail with
      | error fault =>
        refine ⟨before, found, u :: tail, split, ?_⟩
        rintro v more same
        obtain ⟨rfl, rfl⟩ := List.cons.inj same
        exact ⟨fault, head⟩
      | ok piece =>
        obtain ⟨taken, after, rfl, again⟩ := Piece.atHead_taken head
        refine ih after.length ?_ rfl (split.step again)
        simp only [List.length_cons, List.length_append] at length
        omega

/-- A source that has tokens is split up to its end, and its tokens are those found and the end. -/
theorem splits_of_tokens {tokens : List Token} (split : source.tokens = .ok tokens) :
    ∃ found, source.Splits source found [] ∧
      tokens = found ++ [⟨.endOfInput, [], .behind source⟩] := by
  obtain ⟨before, found, rest, reached, stuck⟩ := exists_splits source
  have same := reached.tokens
  rw [split] at same
  cases rest with
  | nil =>
    obtain rfl : source = before := by simpa using reached.whole
    rw [tokensFrom_nil] at same
    exact ⟨found, reached, Except.ok.inj same⟩
  | cons u tail =>
    obtain ⟨fault, head⟩ := stuck u tail rfl
    rw [tokensFrom.eq_def] at same
    simp only [head] at same
    cases same

/-- A split to the end of a source finds its tokens. -/
theorem Splits.tokens_eq (split : source.Splits source found []) :
    source.tokens = .ok (found ++ [⟨.endOfInput, [], .behind source⟩]) := by
  rw [split.tokens, tokensFrom_nil]
  rfl

/-- Where a split comes to a text that starts with no piece, the source is refused. -/
theorem Splits.tokens_error {u : CodeUnit} {tail : Text} {fault : Fault}
    (split : source.Splits before found (u :: tail)) (stuck : Piece.atHead u tail = .error fault) :
    source.tokens = .error (fault.locate (.behind before) tail) := by
  rw [split.tokens, tokensFrom.eq_def]
  simp only [stuck]
  rfl

/-- A source that is refused is split up to a text that starts with no piece, where the error is. -/
theorem splits_of_refused {e : SyntaxError} (refused : source.tokens = .error e) :
    ∃ before found u tail fault, source.Splits before found (u :: tail) ∧
      Piece.atHead u tail = .error fault ∧ e = fault.locate (.behind before) tail := by
  obtain ⟨before, found, rest, reached, stuck⟩ := exists_splits source
  cases rest with
  | nil =>
    rw [reached.tokens, tokensFrom_nil] at refused
    cases refused
  | cons u tail =>
    obtain ⟨fault, head⟩ := stuck u tail rfl
    rw [reached.tokens_error head] at refused
    exact ⟨before, found, u, tail, fault, reached, head, (Except.error.inj refused).symm⟩

end Text

/-! ## Why nothing starts a text -/

/-- A text without a line feed is all on the line that it starts. -/
theorem Text.takeWhile_append_line {body : Text} (noFeed : CodeUnit.lineFeed ∉ body) (after : Text) :
    (body ++ after).takeWhile (· ≠ .lineFeed) = body ++ after.takeWhile (· ≠ .lineFeed) :=
  List.takeWhile_append_of_pos fun v member => by
    simpa using fun same : v = .lineFeed => noFeed (same ▸ member)

/-- Where a line feed or the end follows it is the line. -/
theorem Text.takeWhile_line {body after : Text} (noFeed : CodeUnit.lineFeed ∉ body)
    (ends : ∀ u ∈ after.head?, u = .lineFeed) :
    (body ++ after).takeWhile (· ≠ .lineFeed) = body := by
  rw [takeWhile_append_line noFeed]
  cases after with
  | nil => simp
  | cons v after => simp [ends v rfl]

namespace Piece

variable {u : CodeUnit} {rest : Text} {fault : Fault}

theorem blockComment_refused (refused : blockComment rest = .error fault) :
    fault = .unterminatedComment ∧ commentEnd? rest = none := by
  rw [blockComment] at refused
  cases ends : commentEnd? rest with
  | none => simpa [ends, eq_comm] using refused
  | some n => simp [ends] at refused

/-- A string that is not closed goes on without a quote up to the end of its line. -/
theorem stringLiteral_refused (refused : stringLiteral rest = .error fault) :
    fault = .unterminatedString ∧ ∃ body after, rest = body ++ after ∧
      (CodeUnit.quote ∉ body ∧ CodeUnit.lineFeed ∉ body) ∧ ∀ u ∈ after.head?, u = .lineFeed := by
  obtain ⟨body, after, rfl, taken, inside, ends⟩ :=
    Text.exists_takeWhile (fun v => v ≠ .quote ∧ v ≠ .lineFeed) rest
  simp only [stringLiteral, taken, List.drop_left] at refused
  split at refused
  case isTrue => cases refused
  case isFalse unclosed =>
    have plain : ∀ v ∈ body, v ≠ .quote ∧ v ≠ .lineFeed := by simpa using inside
    refine ⟨(Except.error.inj refused).symm, body, after, rfl,
      ⟨fun member => (plain _ member).1 rfl, fun member => (plain _ member).2 rfl⟩, ?_⟩
    intro v member
    rw [Option.mem_def] at member
    have noQuote : v ≠ .quote := by
      rintro rfl
      exact unclosed (by simp [Text.startsWith, member])
    simpa [member, noQuote] using ends

/-- Why nothing can be taken off the front of a text. -/
theorem atHead_refused (refused : atHead u rest = .error fault) :
    (fault = .unexpectedUnit u ∧ u ≠ .lineFeed) ∨
      (fault = .unterminatedString ∧ u = .quote ∧ ∃ body after, rest = body ++ after ∧
        (CodeUnit.quote ∉ body ∧ CodeUnit.lineFeed ∉ body) ∧ ∀ v ∈ after.head?, v = .lineFeed) ∨
      (fault = .unterminatedComment ∧ u = '/' ∧
        ∃ body, rest = ('*' : CodeUnit) :: body ∧ commentEnd? body = none) := by
  have starts := starts u rest
  rw [refused] at starts
  cases starts with
  | @blockComment body _ first second same =>
    obtain ⟨rfl, unclosed⟩ := blockComment_refused same
    exact .inr (.inr ⟨rfl, first, body, second, unclosed⟩)
  | stringLiteral quote same =>
    obtain ⟨rfl, unclosed⟩ := stringLiteral_refused same
    exact .inr (.inl ⟨rfl, quote, unclosed⟩)
  | nothing visible =>
    refine .inl ⟨rfl, ?_⟩
    rintro rfl
    cases visible

end Piece

end ProcCheck
