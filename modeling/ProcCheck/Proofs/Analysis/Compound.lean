import ProcCheck.Proofs.Analysis.Initial
import ProcCheck.Proofs.Token.Renamed

/-!
# Compound texts and their trees

Whether an initializer is compound is decided by searching its text for signs. The text is that of
the lexemes in the tree, so a sign that is found was brought by one of the nodes: by a call, a group
or an arithmetic operator, which are written with a sign, or by a string literal that holds one.
All other nodes are written without signs.
-/

namespace ProcCheck

/-- The operators that are written with a compound sign. -/
def BinaryOp.isSigned : BinaryOp → Bool
  | add | sub | mul | div => true
  | or | and | equal | notEqual | less | lessEqual | greater | greaterEqual | mod => false

/-- The prefix operators that are written with a compound sign. -/
def PrefixOp.isSigned : PrefixOp → Bool
  | negate => true
  | not => false

/-- Whether a node itself, leaving aside its parts, is written with a compound sign. -/
def Expr.isSigned : Expr → Bool
  | call .. | group .. => true
  | prefixed _ op _ => op.isSigned
  | binary _ op _ _ => op.isSigned
  | stringLiteral src _ => (['+', '-', '*', '/', '('] : List CodeUnit).any src.text.contains
  | intLiteral .. | floatLiteral .. | identifier .. | assign .. | foreign .. => false

namespace Text

@[simp] theorem isCompound_nil : isCompound [] = false := rfl

@[simp] theorem isCompound_append (t t' : Text) :
    (t ++ t').isCompound = (t.isCompound || t'.isCompound) :=
  List.any_append

/-- The signs can be searched for one by one. -/
theorem any_contains_eq (t : Text) : compoundSigns.any t.contains = t.isCompound := by
  rw [Bool.eq_iff_iff, isCompound, List.any_eq_true, List.any_eq_true]
  simp only [List.contains_iff_mem, and_comm]

end Text

theorem BinaryOp.isCompound_spelling (op : BinaryOp) :
    (TokenKind.operator op).spelling.isCompound = op.isSigned := by
  cases op <;> decide

theorem PrefixOp.isCompound_spelling (op : PrefixOp) :
    op.kind.spelling.isCompound = op.isSigned := by
  cases op <;> decide

namespace Expr

/-- The text of a canonical expression is compound exactly if the expression itself is written with
a sign or one of its parts is compound. -/
theorem Canonical.isCompound_eq {e : Expr} (canonical : e.Canonical) :
    e.text.isCompound = (e.isSigned || e.children.any (·.text.isCompound)) := by
  have whole : e.text = Lexeme.joined e.lexemes := canonical.text_eq
  have parts {inner : Expr} (canonical : inner.Canonical) :
      (Lexeme.joined inner.lexemes).isCompound = inner.text.isCompound := by
    rw [text, canonical.text_eq]
  cases canonical with
  | intLiteral spelt =>
    exact Text.isCompound_of_numerals
      (Text.numerals_of_isUnsignedNumber (Text.isUnsignedNumber_of_isWhole spelt))
  | floatLiteral spelt =>
    exact Text.isCompound_of_numerals
      (Text.numerals_of_isUnsignedNumber (Text.isUnsignedNumber_of_isPointed spelt))
  | stringLiteral => exact (Text.any_contains_eq _).symm.trans (Bool.or_false _).symm
  | identifier spelt => exact Text.isCompound_of_spells spelt
  | call | group =>
    have sign : (TokenKind.openParen).spelling.isCompound = true := by decide
    simp [whole, lexemes, Lexeme.fixed, sign, isSigned]
  | assign name canonical =>
    have sign : (TokenKind.assign).spelling.isCompound = false := by decide
    simp [whole, lexemes, Lexeme.fixed, sign, isSigned, children, parts canonical,
      Text.isCompound_of_spells name]
  | binary left right =>
    simp [whole, lexemes, Lexeme.fixed, BinaryOp.isCompound_spelling, isSigned, children,
      parts left, parts right, Bool.or_left_comm]
  | prefixed canonical =>
    simp [whole, lexemes, Lexeme.fixed, PrefixOp.isCompound_spelling, isSigned, children,
      parts canonical]

/-- The parts of a canonical expression are canonical. -/
theorem Canonical.of_mem_children {e child : Expr} (canonical : e.Canonical)
    (direct : child ∈ e.children) : child.Canonical := by
  refine canonical.of_mem_walk ?_
  rw [walk_eq, List.mem_cons, List.mem_flatMap]
  exact .inr ⟨child, direct, by rw [walk_eq]; exact List.mem_cons_self⟩

/-- The text of a canonical expression is compound exactly if a node in it is written with a
sign. -/
theorem Canonical.isCompound_iff {e : Expr} (canonical : e.Canonical) :
    e.text.isCompound ↔ ∃ part ∈ e.walk, part.isSigned := by
  induction e using Expr.childrenInduction with
  | step e ih =>
    rw [canonical.isCompound_eq, walk_eq, Bool.or_eq_true, List.any_eq_true]
    simp only [List.mem_cons, or_and_right, exists_or, exists_eq_left, List.mem_flatMap]
    refine or_congr_right ?_
    constructor
    · rintro ⟨child, direct, compound⟩
      obtain ⟨part, member, signed⟩ :=
        (ih child direct (canonical.of_mem_children direct)).1 compound
      exact ⟨part, ⟨child, direct, member⟩, signed⟩
    · rintro ⟨part, ⟨child, direct, member⟩, signed⟩
      exact ⟨child, direct,
        (ih child direct (canonical.of_mem_children direct)).2 ⟨part, member, signed⟩⟩

end Expr

/-- A text is taken for compound exactly if the tree says so: the text of an expression that a
source spells holds a compound sign if and only if a node in the expression is written with one. A
node that is not written with one adds nothing: its text is compound only through its parts. -/
theorem Text.program_isCompound {source : Text} {p : Program} (read : source.program = .ok p)
    {e : Expr} (member : e ∈ p.walk) :
    (e.text.isCompound ↔ ∃ part ∈ e.walk, part.isSigned) ∧
      (e.isSigned = false →
        (e.text.isCompound ↔ ∃ child ∈ e.children, child.text.isCompound)) := by
  have canonical := (canonical_of_program read).of_mem_walk member
  refine ⟨canonical.isCompound_iff, fun plain => ?_⟩
  rw [canonical.isCompound_eq, plain, Bool.false_or, List.any_eq_true]

/-- Initializers with and without signs, of which one holds its sign in a string. -/
def Text.signed : Text :=
  "int i = a % 2; int j = x = b && !c; int k = t == \"a/b\"; int l = !-(m) < f(1);"

theorem Text.signed_isCompound : ∃ p, Text.signed.program = .ok p ∧
    p.globals.map (·.init.any (·.text.isCompound)) = [false, false, true, true] ∧
    ∃ e ∈ p.walk, e.text = "t==\"a/b\"" ∧ (∃ part ∈ e.walk, part.isSigned) ∧
      e.isSigned = false ∧ ∃ child ∈ e.children, child.text.isCompound := by
  have found : Text.signed.program.toOption.any (fun p =>
      p.globals.map (·.init.any (·.text.isCompound)) = [false, false, true, true] &&
        p.walk.any fun e => e.text = ("t==\"a/b\"" : Text) && !e.isSigned) = true := by
    decide +kernel
  cases read : Text.signed.program with
  | error e =>
    rw [read] at found
    cases found
  | ok p =>
    rw [read] at found
    simp only [Except.toOption, Option.any_some, Bool.and_eq_true, decide_eq_true_eq,
      List.any_eq_true, Bool.not_eq_true'] at found
    obtain ⟨globals, e, member, text, plain⟩ := found
    have compound : e.text.isCompound := by
      rw [text]
      decide
    have both := program_isCompound read member
    exact ⟨p, rfl, globals, e, member, text, both.1.1 compound, plain, (both.2 plain).1 compound⟩

end ProcCheck
