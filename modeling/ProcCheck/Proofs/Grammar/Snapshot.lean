import ProcCheck.Proofs.Grammar.Completeness
import ProcCheck.Proofs.Grammar.Source
import ProcCheck.Proofs.Grammar.Walk
import ProcCheck.Proofs.Token.Adjacent

/-!
# Texts of expressions

The text of an expression is its spellings without the space between them. No two spellings that
can be neighbours in an expression run into each other and none of them opens a comment, so the
text reads back as the expression that it was taken from.
-/

namespace ProcCheck

/-! ## Neighbours in an expression -/

/-- What follows an operand cannot belong to it: it is neither a unit of a word nor a point. -/
def Text.endsOperand (after : Text) : Bool :=
  !after.head?.any fun (u : CodeUnit) => u.isWordUnit || u == '.'

/-- What an operand starts with makes no longer operator of the one before it, and no comment. -/
def Text.startsOperand (t : Text) : Prop :=
  ∃ u rest, t = u :: rest ∧ u ≠ '=' ∧ u ≠ '/' ∧ u ≠ '*'

namespace TokenKind

variable {kind : TokenKind} {t after : Text}

/-- Identifiers and literals start like words, numbers and strings. -/
theorem opensLexeme_of_spells (isOpen : kind.isOpen) (spells : kind.spells t) :
    ∃ u rest, t = u :: rest ∧ u.opensLexeme := by
  obtain ⟨u, rest, rfl⟩ := spells_nonempty (by rintro rfl; cases isOpen) spells
  refine ⟨u, rest, rfl, ?_⟩
  have start : u.isWordStart ∨ u.isDigit ∨ u = .quote := by
    cases kind with
    | identifier =>
      simp only [TokenKind.spells, Text.isWord, Bool.and_eq_true] at spells
      exact .inl spells.1.1
    | stringLiteral =>
      simp only [TokenKind.spells, Text.isQuoted, Bool.and_eq_true, beq_iff_eq] at spells
      exact .inr (.inr spells.1.1)
    | intLiteral =>
      simp only [TokenKind.spells, Text.isWhole, List.all_cons, Bool.and_eq_true] at spells
      exact .inr (.inl spells.2.1)
    | floatLiteral =>
      refine .inr (.inl ?_)
      by_contra noDigit
      simp [TokenKind.spells, Text.isPointed, List.takeWhile_cons_of_neg noDigit,
        Text.isWhole] at spells
    | _ => cases isOpen
  rcases start with start | start | start <;> simp [CodeUnit.opensLexeme, start]

/-- What an expression starts with starts an operand. -/
theorem startsOperand_of_spells (starts : kind.startsExpr) (spells : kind.spells t) :
    (t ++ after).startsOperand := by
  by_cases isOpen : kind.isOpen
  · obtain ⟨u, rest, rfl, opens⟩ := opensLexeme_of_spells isOpen spells
    refine ⟨u, rest ++ after, rfl, ?_, ?_, ?_⟩ <;> rintro rfl <;> revert opens <;> decide
  · have closed : kind.isOpen = false := by simpa using isOpen
    obtain rfl := (spells_fixed closed).1 spells
    cases kind with
    | mainWord => exact ⟨'m', _, rfl, by decide⟩
    | openParen => exact ⟨'(', _, rfl, by decide⟩
    | bang => exact ⟨'!', _, rfl, by decide⟩
    | operator op =>
      cases op with
      | sub => exact ⟨'-', _, rfl, by decide⟩
      | _ => cases starts
    | identifier | stringLiteral | intLiteral | floatLiteral => exact absurd rfl isOpen
    | _ => cases starts

theorem operator_endsAt (op : BinaryOp) (starts : t.startsOperand) : (operator op).endsAt t := by
  obtain ⟨u, rest, rfl, noEqual, noSlash, noStar⟩ := starts
  cases op <;> simp [endsAt, Text.startsWith, noEqual, noSlash, noStar]

theorem prefix_endsAt (op : PrefixOp) (starts : t.startsOperand) : op.kind.endsAt t := by
  obtain ⟨u, rest, rfl, noEqual, -⟩ := starts
  cases op <;> simp [PrefixOp.kind, endsAt, Text.startsWith, noEqual]

theorem isWord_of_spellsCallee {name : Text} (spells : spellsCallee name) : name.isWord := by
  simp only [spellsCallee, Bool.or_eq_true] at spells
  rcases spells with own | reserved
  · exact isWord_of_spells own
  · obtain rfl := (spells_fixed rfl).1 reserved
    decide

end TokenKind

/-- What cannot belong to an operand is neither a unit of a word nor a digit nor a point. -/
theorem Text.endsOperand_cases {after : Text} (ends : after.endsOperand) :
    after.head?.any (·.isWordUnit) = false ∧ after.head?.any (·.isDigit) = false ∧
      after.startsWith '.' = false := by
  cases after with
  | nil => decide
  | cons u rest =>
    simp only [endsOperand, List.head?_cons, Option.any_some, Bool.not_eq_true',
      Bool.or_eq_false_iff, CodeUnit.isWordUnit] at ends
    simp [startsWith, CodeUnit.isWordUnit, ends]

namespace Lexeme

variable {after : Text}

/-- A word stands where no unit of a word follows. -/
theorem stands_word {name : Text} (isWord : name.isWord)
    (ends : after.head?.any (·.isWordUnit) = false) :
    Piece.Stands (some (word name).kind) name after := by
  obtain ⟨endsAt, noEnd⟩ := Piece.endsAt_ofWord (t := name) ends
  exact ⟨noEnd, Piece.spells_ofWord isWord, endsAt⟩

/-- A lexeme with one spelling stands where it ends. -/
theorem stands_fixed {kind : TokenKind} (closed : kind.isOpen = false)
    (noEnd : kind ≠ .endOfInput) (ends : kind.endsAt after) :
    Piece.Stands (some (fixed kind).kind) (fixed kind).spelling after :=
  ⟨noEnd, (TokenKind.spells_fixed closed).2 rfl, ends⟩

end Lexeme

namespace Expr

open Lexeme

variable {after : Text}

/-- What stands side by side with the lexemes of an expression behind it starts an operand. -/
theorem Canonical.startsOperand {e : Expr} (canonical : e.Canonical)
    (adjacent : Adjacent after e.lexemes) : Text.startsOperand (joined e.lexemes ++ after) := by
  obtain ⟨l, more, same, starts⟩ := canonical.starts
  rw [same, adjacent_cons] at adjacent
  rw [same, joined_cons, List.append_assoc]
  exact TokenKind.startsOperand_of_spells starts adjacent.1.2.1

/-- Further arguments stand side by side if each of them does, and what they start with cannot
belong to the argument before. -/
theorem adjacent_moreLexemes {args : List Expr}
    (each : ∀ a ∈ args, ∀ {after : Text}, after.endsOperand → Adjacent after a.lexemes)
    (ends : after.endsOperand) : Adjacent after (lexemes.moreLexemes args) ∧
      Text.endsOperand (joined (lexemes.moreLexemes args) ++ after) := by
  induction args with
  | nil => exact ⟨trivial, ends⟩
  | cons a rest ih =>
    obtain ⟨head, others⟩ := List.forall_mem_cons.1 each
    obtain ⟨tail, goesOn⟩ := ih others
    rw [lexemes.moreLexemes, adjacent_cons, adjacent_append]
    exact ⟨⟨stands_fixed rfl (by decide) rfl, head goesOn, tail⟩, rfl⟩

/-- In front of anything that cannot belong to its last operand, the lexemes of a canonical
expression stand side by side. -/
theorem Canonical.adjacent {e : Expr} (canonical : e.Canonical) {after : Text}
    (ends : after.endsOperand) : Adjacent after e.lexemes := by
  induction canonical generalizing after with
  | intLiteral spelt =>
    obtain ⟨-, noDigit, noPoint⟩ := Text.endsOperand_cases ends
    exact ⟨⟨by simp, spelt, by simp [TokenKind.endsAt, noDigit, noPoint]⟩, trivial⟩
  | floatLiteral spelt =>
    obtain ⟨-, noDigit, -⟩ := Text.endsOperand_cases ends
    exact ⟨⟨by simp, spelt, by simp [TokenKind.endsAt, noDigit]⟩, trivial⟩
  | stringLiteral spelt => exact ⟨⟨by simp, spelt, rfl⟩, trivial⟩
  | identifier spelt =>
    exact ⟨stands_word (TokenKind.isWord_of_spells spelt) (Text.endsOperand_cases ends).1, trivial⟩
  | @call src callee args name each text ih =>
    have closing : Adjacent after [fixed .closeParen] := ⟨stands_fixed rfl (by decide) rfl, trivial⟩
    have inside : Adjacent (joined [fixed .closeParen] ++ after) (lexemes.argLexemes args) := by
      cases args with
      | nil => trivial
      | cons first more =>
        obtain ⟨head, others⟩ := List.forall_mem_cons.1 ih
        obtain ⟨tail, goesOn⟩ :=
          @adjacent_moreLexemes (joined [fixed .closeParen] ++ after) more others rfl
        exact adjacent_append.2 ⟨head goesOn, tail⟩
    exact ⟨stands_word (TokenKind.isWord_of_spellsCallee name) rfl,
      stands_fixed rfl (by decide) rfl, adjacent_append.2 ⟨inside, closing⟩⟩
  | assign name canonical text ih =>
    have value := ih ends
    refine ⟨stands_word (TokenKind.isWord_of_spells name) rfl,
      stands_fixed rfl (by decide) ?_, value⟩
    obtain ⟨u, rest, same, noEqual, -⟩ := canonical.startsOperand value
    rw [same]
    simp [TokenKind.endsAt, Text.startsWith, noEqual]
  | @binary src op left right leftCanonical rightCanonical _ _ text ihLeft ihRight =>
    have behind := ihRight ends
    -- No spelling of an operator goes on with a unit that could belong to the operand before it.
    have sign : Text.endsOperand (joined (fixed (.operator op) :: right.lexemes) ++ after) := by
      cases op <;> rfl
    refine adjacent_append.2 ⟨ihLeft sign, stands_fixed rfl (by simp) ?_, behind⟩
    exact TokenKind.operator_endsAt op (rightCanonical.startsOperand behind)
  | @prefixed src op operand canonical _ text ih =>
    have behind := ih ends
    have ends := TokenKind.prefix_endsAt op (canonical.startsOperand behind)
    refine ⟨stands_fixed ?_ ?_ ends, behind⟩
    · cases op <;> rfl
    · cases op <;> decide
  | @group src inner canonical text ih =>
    have closing : Adjacent after [fixed .closeParen] := ⟨stands_fixed rfl (by decide) rfl, trivial⟩
    have inside : Adjacent (joined [fixed .closeParen] ++ after) inner.lexemes := ih rfl
    exact ⟨stands_fixed rfl (by decide) rfl, adjacent_append.2 ⟨inside, closing⟩⟩

/-- The text of a canonical expression with a semicolon behind it reads back as that expression. -/
theorem Canonical.program_text {e : Expr} (canonical : e.Canonical) :
    ∃ q e' span, Text.program (e.text ++ ";") = .ok q ∧
      q.declarations = [.statement (.expr e' span)] ∧ e'.unplaced = e.unplaced := by
  let alone : Program := ⟨[.statement (.expr e default)], default⟩
  have aloneCanonical : alone.Canonical :=
    List.forall_mem_singleton.2 (.statement rfl (.expr canonical))
  have adjacent : Adjacent [] (e.lexemes ++ [fixed .semicolon]) :=
    adjacent_append.2 ⟨canonical.adjacent rfl, stands_fixed rfl (by decide) rfl, trivial⟩
  obtain ⟨tokens, last, split, isEnd, same⟩ := tokensFrom_of_adjacent adjacent .origin
  have text : joined (e.lexemes ++ [fixed .semicolon]) = e.text ++ ";" := by
    rw [joined_append, Expr.text, canonical.text_eq]
    rfl
  have slots : alone.slots =
      .boundary :: (Slot.ofLexemes (e.lexemes ++ [fixed .semicolon]) ++ [.boundary]) := by
    simp [alone, Program.slots, TopLevel.slots, Stmt.slots, Expr.slots, Slot.fixed]
  have spell : Slot.Spell alone.slots tokens := by
    rw [slots, ← List.append_nil tokens]
    exact .pass ((Slot.spell_ofLexemes.2 same).append (.pass .done))
  obtain ⟨q, read, unplaced⟩ := Program.ofTokens_of_spell aloneCanonical spell isEnd []
  obtain ⟨node, single, sameNode⟩ :=
    List.map_eq_singleton_iff.1 (congrArg Program.declarations unplaced)
  cases node with
  | statement s =>
    cases s with
    | expr e' span =>
      refine ⟨q, e', span, ?_, single, ?_⟩
      · rw [← text]
        exact Text.program_eq_ok.2 ⟨_, split, read⟩
      · exact (Stmt.expr.inj (TopLevel.statement.inj sameNode)).1
    | _ => cases sameNode
  | _ => cases sameNode

end Expr

/-- The text of every expression in a program that a source spells is a faithful copy of it: with a
semicolon behind, it is the source of a program of one statement, which is that expression but for
its places. -/
theorem Text.program_snapshot {source : Text} {p : Program} (read : source.program = .ok p)
    {e : Expr} (member : e ∈ p.walk) :
    ∃ q e' span, Text.program (e.text ++ ";") = .ok q ∧
      q.declarations = [.statement (.expr e' span)] ∧ e'.unplaced = e.unplaced :=
  ((canonical_of_program read).of_mem_walk member).program_text

/-- A function with space around every token and a string that looks like a comment. -/
def Text.spaced : Text :=
  "void f ( ) \x7b if ( ! ( a ) == b - - c ) \x7b g ( a , \"//\" ) ; \x7d \x7d"

theorem Text.spaced_snapshot : ∃ p, Text.spaced.program = .ok p ∧ ∃ e ∈ p.walk,
    e.text = "!(a)==b--c" ∧ ∃ q e' span, Text.program (e.text ++ ";") = .ok q ∧
      q.declarations = [.statement (.expr e' span)] ∧ e'.unplaced = e.unplaced := by
  have found : Text.spaced.program.toOption.any (fun p =>
      p.walk.any (·.text = ("!(a)==b--c" : Text))) = true := by
    decide +kernel
  cases read : Text.spaced.program with
  | error e =>
    rw [read] at found
    cases found
  | ok p =>
    rw [read] at found
    obtain ⟨e, member, text⟩ := List.any_eq_true.1 found
    exact ⟨p, rfl, e, member, of_decide_eq_true text, program_snapshot read member⟩

end ProcCheck
