import ProcCheck.SyntaxError

/-!
# Splitting a source into tokens

`Piece.atHead` finds what stands at the start of a text: a gap (blank space or a comment)
or a lexeme, always as long as it can be. `tokensFrom` goes from piece to piece; every token
starts where the pieces before it end, so no unit is lost and every place is exact.
-/

namespace ProcCheck

/-- What stands at the start of a text: a lexeme of some kind, or a gap. Of its units,
`more` follow the first. -/
structure Piece where
  kind? : Option TokenKind
  more : Nat
  deriving DecidableEq, Repr

namespace Piece

/-- How many units a line comment has after its first, given those after the first. -/
def lineComment (rest : Text) : Piece := ⟨none, (rest.takeWhile (· ≠ .lineFeed)).length⟩

/-- How many units there are up to the end of the first `*/`. -/
def commentEnd? : Text → Option Nat
  | [] => none
  | u :: rest =>
    if u = '*' ∧ Text.startsWith rest '/' then some 2 else (commentEnd? rest).map (· + 1)

/-- The block comment that goes on with `body` after its opening `/*`. -/
def blockComment (body : Text) : Except Fault Piece :=
  match commentEnd? body with
  | some n => .ok ⟨none, n + 1⟩
  | none => .error .unterminatedComment

/-- The string literal that goes on with `rest` after its opening quote: it ends at the
next quote, which must come before the line does. -/
def stringLiteral (rest : Text) : Except Fault Piece :=
  let body := rest.takeWhile fun (u : CodeUnit) => u ≠ .quote ∧ u ≠ .lineFeed
  if Text.startsWith (rest.drop body.length) .quote then .ok ⟨some .stringLiteral, body.length + 1⟩
  else .error .unterminatedString

/-- The word that starts with `u` and goes on in `rest`. -/
def word (u : CodeUnit) (rest : Text) : Piece :=
  let tail := rest.takeWhile (·.isWordUnit)
  ⟨some (.ofWord (u :: tail)), tail.length⟩

/-- The number that goes on with `rest` after its first digit. A point belongs to it only
if a digit follows. -/
def number (rest : Text) : Piece :=
  let whole := (rest.takeWhile (·.isDigit)).length
  let fraction := ((rest.drop (whole + 1)).takeWhile (·.isDigit)).length
  if Text.startsWith (rest.drop whole) '.' ∧ 0 < fraction then ⟨some .floatLiteral, whole + 1 + fraction⟩
  else ⟨some .intLiteral, whole⟩

/-- The operator or punctuation at the start of a text. -/
def fixed? (text : Text) : Option Piece :=
  (TokenKind.fixed.find? fun entry => entry.1.isPrefixOf text).map fun entry =>
    ⟨some entry.2, entry.1.length - 1⟩

/-- What stands at the start of the text `u :: rest`. -/
def atHead (u : CodeUnit) (rest : Text) : Except Fault Piece :=
  if u.isBlank then .ok ⟨none, 0⟩
  else if u = '/' ∧ rest.startsWith '/' then .ok (lineComment rest)
  else if u = '/' ∧ rest.startsWith '*' then blockComment (rest.drop 1)
  else if let some piece := fixed? (u :: rest) then .ok piece
  else if u = .quote then stringLiteral rest
  else if u.isWordStart then .ok (word u rest)
  else if u.isDigit then .ok (number rest)
  else .error (.unexpectedUnit u)

end Piece

/-- A fault at the start of the text `u :: rest`. An unclosed string is marked from its quote
to the end of its line, an unclosed comment at its two opening units. -/
def Fault.locate (pos : Position) (rest : Text) : Fault → SyntaxError
  | fault@.unterminatedString =>
    ⟨fault, pos.line, pos.col, some ((rest.takeWhile (· ≠ .lineFeed)).length + 1)⟩
  | fault@.unterminatedComment => ⟨fault, pos.line, pos.col, some 2⟩
  | fault => ⟨fault, pos.line, pos.col, none⟩

/-- The tokens of a text that starts at `pos`, closed by an end token. -/
def tokensFrom (pos : Position) (text : Text) : Except SyntaxError (List Token) :=
  match text with
  | [] => .ok [⟨.endOfInput, [], pos⟩]
  | u :: rest =>
    match Piece.atHead u rest with
    | .error fault => .error (fault.locate pos rest)
    | .ok piece =>
      let spelling := u :: rest.take piece.more
      let tokens := tokensFrom (pos.after spelling) (rest.drop piece.more)
      match piece.kind? with
      | none => tokens
      | some kind => tokens.map (⟨kind, spelling, pos⟩ :: ·)
termination_by text.length
decreasing_by simp only [List.length_drop, List.length_cons]; omega

/-- The tokens of a source, closed by an end token; the first fault refuses it. -/
def Text.tokens (source : Text) : Except SyntaxError (List Token) :=
  tokensFrom .origin source

end ProcCheck
