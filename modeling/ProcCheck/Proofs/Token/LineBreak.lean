import ProcCheck.Proofs.Token.Continued

/-!
# Sources below each other

A line feed ends every token and every line comment in front of it, and the column starts anew
behind it. So where a source has tokens, what stands in the lines below it is split as if it stood
alone, only further down.
-/

namespace ProcCheck

/-! ## Further down -/

/-- The place `n` lines further down. -/
def Position.lowered (n : Int) (p : Position) : Position := ⟨p.line + n, p.col⟩

/-- The token `n` lines further down. -/
def Token.lowered (n : Int) (t : Token) : Token := { t with pos := t.pos.lowered n }

/-- The error `n` lines further down. -/
def SyntaxError.lowered (n : Int) (e : SyntaxError) : SyntaxError :=
  { e with location := { e.location with line := e.location.line + n } }

namespace Position

theorem next_lowered (n : Int) (p : Position) (u : CodeUnit) :
    (p.lowered n).next u = (p.next u).lowered n := by
  by_cases feed : u = .lineFeed
  · simp only [next, feed, if_true, lowered, Position.mk.injEq, and_true]
    omega
  · simp only [next, feed, if_false, lowered]

theorem after_lowered (n : Int) (p : Position) (t : Text) :
    (p.lowered n).after t = (p.after t).lowered n := by
  induction t generalizing p with
  | nil => rfl
  | cons u t ih => rw [after_cons, after_cons, next_lowered, ih]

/-- Below a text a new line starts. -/
theorem behind_lineFeed (t : Text) :
    behind (t ++ [.lineFeed]) = origin.lowered (1 + (t.count .lineFeed : Nat)) := by
  rw [behind_concat, behind, next, if_pos rfl, lowered, origin]
  simp only [Position.mk.injEq, and_true]
  omega

end Position

theorem Fault.locate_lowered (n : Int) (pos : Position) (rest : Text) (fault : Fault) :
    fault.locate (pos.lowered n) rest = (fault.locate pos rest).lowered n := by
  cases fault <;> rfl

theorem Piece.token?_lowered (n : Int) (kind? : Option TokenKind) (spelling : Text)
    (pos : Position) :
    token? kind? spelling (pos.lowered n) = (token? kind? spelling pos).map (Token.lowered n) := by
  cases kind? <;> rfl

/-- From a place further down the tokens are the same, and so is the error, further down. -/
theorem tokensFrom_lowered (n : Int) (pos : Position) (text : Text) :
    tokensFrom (pos.lowered n) text = match tokensFrom pos text with
      | .ok tokens => .ok (tokens.map (Token.lowered n))
      | .error e => .error (e.lowered n) := by
  cases text with
  | nil =>
    rw [tokensFrom_nil, tokensFrom_nil]
    rfl
  | cons u rest =>
    cases head : Piece.atHead u rest with
    | error fault =>
      rw [tokensFrom.eq_def, tokensFrom.eq_def]
      simp only [head, Fault.locate_lowered]
    | ok piece =>
      obtain ⟨taken, after, rfl, found⟩ := Piece.atHead_taken head
      have later := tokensFrom_lowered n (pos.after (u :: taken)) after
      rw [tokensFrom_piece found, tokensFrom_piece found, Position.after_lowered, later,
        Piece.token?_lowered]
      cases tokensFrom (pos.after (u :: taken)) after with
      | error e => rfl
      | ok tokens => simp [Except.map]
termination_by text.length

/-! ## The lines below -/

/-- A source that has tokens may be followed by further lines: its tokens but for the end are the
first of the whole, and behind them come the tokens of the lines below, as many lines further down
as there are above. Where the lines below are refused the whole is refused for the same fault, in
the same column and with the same length, as many lines further down. -/
theorem Text.tokens_below {above : Text} {tokens : List Token} (split : above.tokens = .ok tokens)
    (below : Text) : ∃ found last, tokens = found ++ [last] ∧ last.isEnd ∧
      Text.tokens (above ++ .lineFeed :: below) =
        let lines : Int := 1 + (above.count .lineFeed : Nat)
        match below.tokens with
        | .ok others => .ok (found ++ others.map (Token.lowered lines))
        | .error e => .error (e.lowered lines) := by
  obtain ⟨found, splits, rfl⟩ := splits_of_tokens split
  refine ⟨found, _, rfl, rfl, ?_⟩
  have reached : Splits (above ++ .lineFeed :: below) (above ++ [.lineFeed]) found below :=
    (splits.again .lineFeed).blank (by decide)
  rw [reached.tokens, Position.behind_lineFeed, tokensFrom_lowered, ← Text.tokens]
  cases below.tokens with
  | error e => rfl
  | ok others => rfl

/-- A name and a comment that goes on to the end. -/
def Text.remark : Text := "a // b \"c"

/-- Below `Text.remark` a point that starts no token is refused, and a number and a name are found. -/
theorem Text.remark_below : ∃ tokens, Text.remark.tokens = .ok tokens ∧
    (∃ found last, tokens = found ++ [last] ∧ last.isEnd ∧
      Text.tokens (Text.remark ++ .lineFeed :: "1/*\n*/.") =
        .error ⟨.unexpectedUnit '.', ⟨3, 3, none⟩⟩) ∧
    ∃ found last, tokens = found ++ [last] ∧ last.isEnd ∧
      Text.tokens (Text.remark ++ .lineFeed :: "1.5 a1") =
        .ok (found ++ [⟨.floatLiteral, "1.5", ⟨2, 1⟩⟩, ⟨.identifier, "a1", ⟨2, 5⟩⟩,
          ⟨.endOfInput, [], ⟨2, 7⟩⟩]) := by
  have split : Text.remark.tokens =
      .ok [⟨.identifier, "a", ⟨1, 1⟩⟩, ⟨.endOfInput, [], ⟨1, 10⟩⟩] := by
    decide +kernel
  have refused : Text.tokens "1/*\n*/." = .error ⟨.unexpectedUnit '.', ⟨2, 3, none⟩⟩ := by
    decide +kernel
  have numbers : Text.tokens "1.5 a1" = .ok [⟨.floatLiteral, "1.5", ⟨1, 1⟩⟩,
      ⟨.identifier, "a1", ⟨1, 5⟩⟩, ⟨.endOfInput, [], ⟨1, 7⟩⟩] := by
    decide +kernel
  refine ⟨_, split, ?_, ?_⟩
  · obtain ⟨found, last, ends, isEnd, whole⟩ := Text.tokens_below split "1/*\n*/."
    refine ⟨found, last, ends, isEnd, ?_⟩
    rw [whole, refused]
    rfl
  · obtain ⟨found, last, ends, isEnd, whole⟩ := Text.tokens_below split "1.5 a1"
    refine ⟨found, last, ends, isEnd, ?_⟩
    rw [whole, numbers]
    rfl

end ProcCheck
