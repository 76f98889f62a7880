import ProcCheck.Proofs.Grammar.Equations
import ProcCheck.Proofs.Grammar.ExpressionCompleteness

/-!
# Completeness of the readers of programs

On tokens that spell a canonical piece of a program its reader takes exactly those tokens and
returns that piece, whatever semicolons stand at its boundaries. Statements are told apart by
their first token, functions from globals by their third; only a branch looks at the token behind
it. Completeness on all token lists gives that no two canonical programs print alike.
-/

namespace ProcCheck

open Slot

/-- A function is named by an identifier or by the reserved word. -/
theorem FunctionDecl.Canonical.name_cases {decl : FunctionDecl}
    (canonical : decl.Canonical) :
    (TokenKind.ofWord decl.name = .identifier ∧ decl.name? = some decl.name ∧
      decl.entryName? = none) ∨
    TokenKind.ofWord decl.name = .mainWord ∧ decl.name? = none ∧
      decl.entryName? = some decl.name := by
  rcases canonical.name with ⟨name, spells, own, entry⟩ | ⟨own, entry⟩
  · have same : decl.name = name := by simp [FunctionDecl.name, own, entry]
    rw [same]
    exact .inl ⟨TokenKind.ofWord_eq_identifier spells, own, entry⟩
  · have same : decl.name = "main" := by simp [FunctionDecl.name, entry]
    rw [same]
    exact .inr ⟨by decide, own, entry⟩

namespace Grammar

variable {rest : List Token}

/-- Nothing is asked of what follows. -/
abbrev anything : TokenKind → Prop := fun _ => True

/-! ## Parts of statements -/

/-- An expression is read up to a token that can follow it. -/
theorem expression_before {e : Expr} (canonical : e.Canonical) {used : List Token}
    (spell : Spell e.slots used) {last : Token} {stop : TokenKind} (stops : last.kind = stop)
    (ends : stop.endsExpr) : ∃ e', expression (used ++ last :: rest) = .ok (e', last :: rest) ∧
      e'.unplaced = e.unplaced :=
  expression_completes e used (last :: rest) (.of_spell canonical spell) (by simpa [stops])

theorem unlessNext_completes {stop : TokenKind} (ends : stop.endsExpr) (other : ¬ stop.startsExpr)
    {e : Option Expr} (each : ∀ a ∈ e, a.Canonical) {used : List Token}
    (spell : Spell (Expr.optionSlots e) used) {last : Token} (stops : last.kind = stop) :
    ∃ e', unlessNext stop expression (used ++ last :: rest) = .ok (e', last :: rest) ∧
      e'.map Expr.unplaced = e.map Expr.unplaced := by
  cases e with
  | none =>
    obtain rfl := spell_nil.1 spell
    exact ⟨none, unlessNext_ok.2 (.inl ⟨rfl, rfl, last, rfl, stops⟩), rfl⟩
  | some a =>
    obtain ⟨b, run, same⟩ := expression_before (each a rfl) spell stops ends
    obtain ⟨t, tail, rfl, starts⟩ := (Expr.SpeltBy.of_spell (each a rfl) spell).starts
    refine ⟨some b, unlessNext_ok.2 (.inr ⟨b, rfl, run, ?_⟩), by simp [same]⟩
    intro head member isStop
    obtain rfl : t = head := by simpa using member
    exact other (isStop ▸ starts)

theorem initializes_completes {init : Option Expr} (each : ∀ e ∈ init, e.Canonical)
    {used : List Token} (spell : Spell (Expr.initSlots init) used) {last : Token}
    (closes : last.kind = .semicolon) :
    ∃ init', Initializes (used ++ last :: rest) init' (last :: rest) ∧
      init'.map Expr.unplaced = init.map Expr.unplaced := by
  cases init with
  | none =>
    obtain rfl := spell_nil.1 spell
    exact ⟨none, .inr ⟨rfl, rfl, by simp [closes]⟩, rfl⟩
  | some e =>
    obtain ⟨sign, tail, rfl, isSign, spellValue⟩ := spell_lexeme.1 spell
    obtain ⟨b, run, same⟩ := expression_before (each e rfl) spellValue closes rfl
    exact ⟨some b, .inl ⟨sign, _, b, rfl, congrArg Lexeme.kind isSign, rfl, run⟩, by simp [same]⟩

/-- A type word and an identifier, as declarations and parameters start with. -/
theorem typed_kinds {type name : Text} {typeToken nameToken : Token}
    (isType : TokenKind.spellsType type) (isName : TokenKind.identifier.spells name)
    (typeWord : typeToken.lexeme = .word type) (nameWord : nameToken.lexeme = .word name) :
    typeToken.kind.isType ∧ nameToken.kind = .identifier ∧ typeToken.spelling = type ∧
      nameToken.spelling = name := by
  have typeKind : typeToken.kind = TokenKind.ofWord type := congrArg Lexeme.kind typeWord
  have nameKind : nameToken.kind = TokenKind.ofWord name := congrArg Lexeme.kind nameWord
  refine ⟨typeKind ▸ isType, ?_, congrArg Lexeme.spelling typeWord, congrArg Lexeme.spelling nameWord⟩
  rw [nameKind, TokenKind.ofWord_eq_identifier isName]

theorem varDecl_completes : Completes varDecl VarDecl.SpeltBy VarDecl.unplaced anything := by
  rintro decl used rest ⟨canonical, spell⟩ -
  obtain ⟨type, tail, rfl, typeWord, spell⟩ := spell_lexeme.1 spell
  obtain ⟨name, tail, rfl, nameWord, spell⟩ := spell_lexeme.1 spell
  obtain ⟨initUsed, tail, rfl, spellInit, spell⟩ := spell_append.1 spell
  obtain ⟨last, _, rfl, closes, spell⟩ := spell_lexeme.1 spell
  obtain rfl := spell_nil.1 spell
  have isLast : last.kind = .semicolon := congrArg Lexeme.kind closes
  obtain ⟨isType, isName, typeSpelling, nameSpelling⟩ :=
    typed_kinds canonical.type canonical.name typeWord nameWord
  obtain ⟨init, initializes, same⟩ := initializes_completes canonical.init spellInit isLast
  refine ⟨⟨type.spelling, name.spelling, init, type.span ++ last.span⟩, ?_, ?_⟩
  · refine varDecl_ok.2 ⟨type, name, initUsed ++ last :: rest, init, last, by simp, ?_⟩
    exact ⟨isType, isName, initializes, isLast, rfl⟩
  · simp [VarDecl.unplaced, typeSpelling, nameSpelling, same]

theorem exprStmt_completes {e : Expr} {span : Span} {used : List Token}
    (spelt : (Stmt.expr e span).SpeltBy used) (rest : List Token) :
    ∃ s, exprStmt (used ++ rest) = .ok (s, rest) ∧
      s.unplaced = (Stmt.expr e span).unplaced := by
  obtain ⟨canonical, spell⟩ := spelt
  cases canonical with
  | expr canonical =>
    obtain ⟨exprUsed, tail, rfl, spellExpr, spell⟩ := spell_append.1 spell
    obtain ⟨last, _, rfl, closes, spell⟩ := spell_lexeme.1 spell
    obtain rfl := spell_nil.1 spell
    have isLast : last.kind = .semicolon := congrArg Lexeme.kind closes
    obtain ⟨e', run, same⟩ := expression_before canonical spellExpr isLast rfl
    refine ⟨.expr e' (e'.span ++ last.span), exprStmt_ok.2 ⟨e', last, by simpa, isLast, rfl⟩, ?_⟩
    simp [Stmt.unplaced, same]

theorem condition_completes (opening : Expectation) {e : Expr} (canonical : e.Canonical)
    {used : List Token}
    (spell : Spell (.fixed .openParen :: (e.slots ++ [.fixed .closeParen])) used) :
    ∃ e', condition opening (used ++ rest) = .ok (e', rest) ∧ e'.unplaced = e.unplaced := by
  obtain ⟨paren, tail, rfl, opens, spell⟩ := spell_lexeme.1 spell
  obtain ⟨exprUsed, tail, rfl, spellExpr, spell⟩ := spell_append.1 spell
  obtain ⟨closing, _, rfl, closes, spell⟩ := spell_lexeme.1 spell
  obtain rfl := spell_nil.1 spell
  have isClosing : closing.kind = .closeParen := congrArg Lexeme.kind closes
  obtain ⟨e', run, same⟩ := expression_before canonical spellExpr isClosing rfl
  refine ⟨e', condition_ok.2 ⟨paren, exprUsed ++ closing :: rest, closing, by simp, ?_⟩, same⟩
  exact ⟨congrArg Lexeme.kind opens, run, isClosing⟩

/-! ## Sequences and blocks -/

/-- Tokens of pieces with boundaries start with a semicolon or like a statement. -/
theorem between_head {pieces : List (List Slot)}
    (starts : ∀ piece ∈ pieces, ∃ l more, piece = .lexeme l :: more ∧ l.kind.startsStmt)
    {t : Token} {ts : List Token} (spell : Spell (between pieces) (t :: ts)) :
    t.kind = .semicolon ∨ t.kind.startsStmt := by
  cases pieces with
  | nil =>
    cases spell with
    | pass spell => cases spell
    | empty semicolon => exact .inl (congrArg Lexeme.kind semicolon)
  | cons piece pieces =>
    obtain ⟨⟨l, more, rfl, start⟩, -⟩ := List.forall_mem_cons.1 starts
    rw [between_cons] at spell
    cases spell with
    | pass spell =>
      obtain ⟨_, _, same, head, -⟩ := spell_lexeme.1 spell
      obtain ⟨rfl, -⟩ := List.cons.inj same
      have kind : t.kind = l.kind := congrArg Lexeme.kind head
      exact .inr (kind ▸ start)
    | empty semicolon => exact .inl (congrArg Lexeme.kind semicolon)

/-- What a statement starts with is no semicolon and closes or continues nothing. -/
theorem startsStmt_other {kind : TokenKind} (start : kind.startsStmt) :
    kind ≠ .semicolon ∧ kind ≠ .closeBrace ∧ kind ≠ .elseWord := by
  cases kind <;> simp_all [TokenKind.startsStmt, TokenKind.startsExpr, TokenKind.isType]

/-- Neither an item nor a semicolon continues the statement before it. -/
theorem between_no_else {pieces : List (List Slot)}
    (starts : ∀ piece ∈ pieces, ∃ l more, piece = .lexeme l :: more ∧ l.kind.startsStmt)
    {ts : List Token} (spell : Spell (between pieces) ts)
    (follow : ∀ t ∈ rest.head?, t.kind ≠ .elseWord) :
    ∀ t ∈ (ts ++ rest).head?, t.kind ≠ .elseWord := by
  cases ts with
  | nil => exact follow
  | cons head tail =>
    rintro _ ⟨⟩ isElse
    rcases between_head starts spell with kind | start
    · rw [kind] at isElse
      cases isElse
    · exact (startsStmt_other start).2.2 isElse

theorem sequence_completes {α : Type} {item : Parse α} {stop : TokenKind → Bool} {C : α → Prop}
    {slots : α → List Slot} {unplaced : α → α} {n : Nat}
    (completes : Completes item (fun a used => (C a ∧ Spell (slots a) used) ∧ used.length ≤ n)
      unplaced (· ≠ .elseWord))
    (starts : ∀ a, C a → ∃ l more, slots a = .lexeme l :: more ∧ l.kind.startsStmt)
    (stops : ∀ kind, stop kind → kind = .closeBrace) {bound : Nat} {items : List α}
    (each : ∀ a ∈ items, C a) {used : List Token} (spell : Spell (between (items.map slots)) used)
    (fits : used.length ≤ n) (fitsBound : used.length ≤ bound)
    (stopped : ∀ t ∈ rest.head?, stop t.kind) :
    ∃ items', sequence item stop bound (used ++ rest) = .ok (items', rest) ∧
      items'.map unplaced = items.map unplaced := by
  have follow : ∀ t ∈ rest.head?, t.kind ≠ .elseWord := by
    intro t member isElse
    rw [stops _ (stopped t member)] at isElse
    cases isElse
  have goesOn {kind : TokenKind} (other : kind ≠ .closeBrace) : ¬ stop kind := fun h =>
    other (stops kind h)
  induction bound generalizing items used with
  | zero =>
    obtain rfl := List.length_eq_zero_iff.1 (Nat.le_zero.1 fitsBound)
    cases items with
    | nil => exact ⟨[], pure_ok.2 ⟨rfl, rfl⟩, rfl⟩
    | cons a items =>
      obtain ⟨l, more, same, -⟩ := starts a (each a (by simp))
      rw [List.map_cons, between_cons, same] at spell
      cases spell with
      | pass spell =>
        obtain ⟨t, tail, front, -⟩ := spell_lexeme.1 spell
        cases front
  | succ bound ih =>
    -- A semicolon in front is skipped, wherever the first boundary stands.
    have skipped {t : Token} {tail : List Token} (semicolon : t.lexeme = .fixed .semicolon)
        (spell : Spell (between (items.map slots)) tail) (fits : (t :: tail).length ≤ n)
        (fitsBound : (t :: tail).length ≤ bound + 1) :
        ∃ items', sequence item stop (bound + 1) (t :: tail ++ rest) = .ok (items', rest) ∧
          items'.map unplaced = items.map unplaced := by
      have kind : t.kind = .semicolon := congrArg Lexeme.kind semicolon
      obtain ⟨items', run, same⟩ := ih each spell (Nat.le_of_succ_le fits)
        (Nat.le_of_succ_le_succ fitsBound)
      refine ⟨items', ?_, same⟩
      rw [List.cons_append, sequence_semicolon (goesOn (by simp [kind])) kind]
      exact run
    cases items with
    | nil =>
      cases spell with
      | pass spell =>
        obtain rfl := spell_nil.1 spell
        exact ⟨[], sequence_stopped stopped, rfl⟩
      | empty semicolon spell => exact skipped semicolon spell fits fitsBound
    | cons a items =>
      obtain ⟨canonical, others⟩ := List.forall_mem_cons.1 each
      rw [List.map_cons, between_cons] at spell skipped
      cases spell with
      | empty semicolon spell => exact skipped semicolon spell fits fitsBound
      | pass spell =>
        obtain ⟨first, tail, rfl, spellFirst, spellTail⟩ := spell_append.1 spell
        obtain ⟨l, more, slotsEq, start⟩ := starts a canonical
        simp only [List.length_append] at fits fitsBound
        have pieces : ∀ piece ∈ items.map slots,
            ∃ l more, piece = .lexeme l :: more ∧ l.kind.startsStmt := by
          intro piece member
          obtain ⟨b, among, rfl⟩ := List.mem_map.1 member
          exact starts b (others b among)
        have ahead := between_no_else pieces spellTail follow
        obtain ⟨b, run, same⟩ :=
          completes a first (tail ++ rest) ⟨⟨canonical, spellFirst⟩, by omega⟩ ahead
        obtain ⟨t, firstTail, rfl, headLexeme, -⟩ := spell_lexeme.1 (slotsEq ▸ spellFirst)
        have kind : t.kind = l.kind := congrArg Lexeme.kind headLexeme
        obtain ⟨noSemicolon, noBrace, -⟩ := startsStmt_other (kind ▸ start)
        simp only [List.length_cons] at fits fitsBound
        obtain ⟨items', runTail, sameTail⟩ := ih others spellTail (by omega) (by omega)
        refine ⟨b :: items', ?_, by simp [same, sameTail]⟩
        simp only [List.cons_append, List.append_assoc] at run ⊢
        rw [sequence_item (goesOn noBrace) noSemicolon]
        exact bind_ok.2 ⟨b, tail ++ rest, run, map_ok.2 ⟨items', runTail, rfl⟩⟩

theorem block_completes {stmt : Parse Stmt} {bound : Nat}
    (completes : Completes stmt (fun s used => s.SpeltBy used ∧ used.length ≤ bound) Stmt.unplaced
      (· ≠ .elseWord)) :
    Completes (block stmt bound) (fun b used => b.SpeltBy used ∧ used.length ≤ bound + 1)
      Block.unplaced anything := by
  rintro b used rest ⟨⟨each, spell⟩, fits⟩ -
  rw [Stmt.blockSlots_eq] at spell
  obtain ⟨opening, tail, rfl, opens, spell⟩ := spell_lexeme.1 spell
  obtain ⟨inside, tail, rfl, spellInside, spell⟩ := spell_append.1 spell
  obtain ⟨closing, _, rfl, closes, spell⟩ := spell_lexeme.1 spell
  obtain rfl := spell_nil.1 spell
  have isClosing : closing.kind = .closeBrace := congrArg Lexeme.kind closes
  have starts (s : Stmt) (canonical : s.Canonical) :
      ∃ l more, s.slots = .lexeme l :: more ∧ l.kind.startsStmt := by
    obtain ⟨l, more, same, start, -⟩ := canonical.starts
    exact ⟨l, more, same, start⟩
  simp only [List.length_cons, List.length_append] at fits
  have loop : ∃ statements, sequence stmt (· = .closeBrace) bound (inside ++ closing :: rest) =
      .ok (statements, closing :: rest) ∧ statements.map Stmt.unplaced =
        b.statements.map Stmt.unplaced :=
    sequence_completes completes starts (fun kind stop => by simpa using stop) each spellInside
      (by omega) (by omega) (by simp [isClosing])
  obtain ⟨statements, run, same⟩ := loop
  refine ⟨⟨statements, opening.span ++ closing.span⟩, ?_, by simp [Block.unplaced, same]⟩
  refine block_ok.2 ⟨opening, inside ++ closing :: rest, statements, closing, by simp, ?_⟩
  exact ⟨congrArg Lexeme.kind opens, run, isClosing, rfl⟩

/-! ## Statements -/

section Body

variable {body : Parse (Block Stmt)} {n : Nat} {used : List Token}

/-- The reader of blocks is complete for at most `n` tokens. -/
def BodyComplete (n : Nat) (body : Parse (Block Stmt)) : Prop :=
  Completes body (fun b used => b.SpeltBy used ∧ used.length ≤ n) Block.unplaced anything

theorem return_completes {value : Option Expr} {span : Span}
    (spelt : (Stmt.ret value span).SpeltBy used) :
    ∃ s, stmtWith body (used ++ rest) = .ok (s, rest) ∧
      s.unplaced = (Stmt.ret value span).unplaced := by
  obtain ⟨canonical, spell⟩ := spelt
  cases canonical with
  | ret each =>
    obtain ⟨first, tail, rfl, isReturn, spell⟩ := spell_lexeme.1 spell
    obtain ⟨valueUsed, tail, rfl, spellValue, spell⟩ := spell_append.1 spell
    obtain ⟨last, _, rfl, closes, spell⟩ := spell_lexeme.1 spell
    obtain rfl := spell_nil.1 spell
    have kind : first.kind = .returnWord := congrArg Lexeme.kind isReturn
    have isLast : last.kind = .semicolon := congrArg Lexeme.kind closes
    obtain ⟨value', run, same⟩ := unlessNext_completes (by rfl) (by simp [TokenKind.startsExpr])
      each spellValue isLast
    refine ⟨.ret value' (first.span ++ last.span), ?_, by simp [Stmt.unplaced, same]⟩
    simp only [List.cons_append, List.append_assoc, List.nil_append, stmtWith, kind]
    exact returnStmt_ok.2 ⟨value', last, run, isLast, rfl⟩

theorem alternates_completes (completes : BodyComplete n body) {elseBlock : Option (Block Stmt)}
    (each : ∀ b ∈ elseBlock, ∀ s ∈ b.statements, s.Canonical)
    (spell : Spell (Stmt.slots.elseSlots elseBlock) used) (fits : used.length ≤ n)
    (follow : ∀ t ∈ rest.head?, t.kind ≠ .elseWord) :
    ∃ elseBlock', Alternates body (used ++ rest) elseBlock' rest ∧
      elseBlock'.map Block.unplaced = elseBlock.map Block.unplaced := by
  cases elseBlock with
  | none =>
    obtain rfl := spell_nil.1 spell
    exact ⟨none, .inr ⟨rfl, rfl, follow⟩, rfl⟩
  | some b =>
    obtain ⟨word, tail, rfl, isElse, spellBody⟩ := spell_lexeme.1 spell
    obtain ⟨b', run, same⟩ :=
      completes b tail rest ⟨⟨each b rfl, spellBody⟩, Nat.le_of_succ_le fits⟩ (by simp)
    have kind : word.kind = .elseWord := congrArg Lexeme.kind isElse
    exact ⟨some b', .inl ⟨word, tail ++ rest, b', rfl, kind, rfl, run⟩, by simp [same]⟩

theorem branch_completes (completes : BodyComplete n body) {test : Expr} {thenBlock : Block Stmt}
    {elseBlock : Option (Block Stmt)} {span : Span}
    (spelt : (Stmt.branch test thenBlock elseBlock span).SpeltBy used) (fits : used.length ≤ n + 1)
    (follow : ∀ t ∈ rest.head?, t.kind ≠ .elseWord) :
    ∃ s, stmtWith body (used ++ rest) = .ok (s, rest) ∧
      s.unplaced = (Stmt.branch test thenBlock elseBlock span).unplaced := by
  obtain ⟨canonical, spell⟩ := spelt
  cases canonical with
  | branch testCanonical thenEach elseEach =>
    have shape : (Stmt.branch test thenBlock elseBlock span).slots = .fixed .ifWord ::
        ((.fixed .openParen :: (test.slots ++ [.fixed .closeParen])) ++
          (Stmt.slots.blockSlots thenBlock ++ Stmt.slots.elseSlots elseBlock)) := by
      simp [Stmt.slots]
    rw [shape] at spell
    obtain ⟨first, tail, rfl, isIf, spell⟩ := spell_lexeme.1 spell
    obtain ⟨testUsed, tail, rfl, spellTest, spell⟩ := spell_append.1 spell
    obtain ⟨thenUsed, elseUsed, rfl, spellThen, spellElse⟩ := spell_append.1 spell
    simp only [List.length_cons, List.length_append] at fits
    have kind : first.kind = .ifWord := congrArg Lexeme.kind isIf
    obtain ⟨test', runTest, sameTest⟩ := condition_completes .ifParen testCanonical spellTest
    obtain ⟨thenBlock', runThen, sameThen⟩ := completes thenBlock thenUsed (elseUsed ++ rest)
      ⟨⟨thenEach, spellThen⟩, by omega⟩ (by simp)
    obtain ⟨elseBlock', alternates, sameElse⟩ :=
      alternates_completes completes elseEach spellElse (by omega) follow
    refine ⟨.branch test' thenBlock' elseBlock'
      (first.span ++ (elseBlock'.elim thenBlock'.span Block.span)), ?_, ?_⟩
    · simp only [List.cons_append, List.append_assoc, stmtWith, kind]
      exact ifStmt_ok.2 ⟨test', _, thenBlock', _, elseBlock', runTest, runThen, alternates, rfl⟩
    · simp [Stmt.unplaced, sameTest, sameThen, sameElse]

theorem while_completes (completes : BodyComplete n body) {test : Expr} {inner : Block Stmt}
    {span : Span} (spelt : (Stmt.whileLoop test inner span).SpeltBy used)
    (fits : used.length ≤ n + 1) :
    ∃ s, stmtWith body (used ++ rest) = .ok (s, rest) ∧
      s.unplaced = (Stmt.whileLoop test inner span).unplaced := by
  obtain ⟨canonical, spell⟩ := spelt
  cases canonical with
  | whileLoop testCanonical each =>
    have shape : (Stmt.whileLoop test inner span).slots = .fixed .whileWord ::
        ((.fixed .openParen :: (test.slots ++ [.fixed .closeParen])) ++
          Stmt.slots.blockSlots inner) := by
      simp [Stmt.slots]
    rw [shape] at spell
    obtain ⟨first, tail, rfl, isWhile, spell⟩ := spell_lexeme.1 spell
    obtain ⟨testUsed, innerUsed, rfl, spellTest, spellInner⟩ := spell_append.1 spell
    simp only [List.length_cons, List.length_append] at fits
    have kind : first.kind = .whileWord := congrArg Lexeme.kind isWhile
    obtain ⟨test', runTest, sameTest⟩ := condition_completes .whileParen testCanonical spellTest
    obtain ⟨inner', runInner, sameInner⟩ :=
      completes inner innerUsed rest ⟨⟨each, spellInner⟩, by omega⟩ (by simp)
    refine ⟨.whileLoop test' inner' (first.span ++ inner'.span), ?_, ?_⟩
    · simp only [List.cons_append, List.append_assoc, stmtWith, kind]
      exact whileStmt_ok.2 ⟨test', _, inner', runTest, runInner, rfl⟩
    · simp [Stmt.unplaced, sameTest, sameInner]

theorem forInit_completes {init : Option Stmt} (clause : ∀ s ∈ init, s.isClause)
    (each : ∀ s ∈ init, s.Canonical) (spell : Spell (Stmt.slots.initSlots init) used) :
    ∃ init', forInit (used ++ rest) = .ok (init', rest) ∧
      init'.map Stmt.unplaced = init.map Stmt.unplaced := by
  cases init with
  | none =>
    obtain ⟨t, tail, rfl, semicolon, spell⟩ := spell_lexeme.1 spell
    obtain rfl := spell_nil.1 spell
    have kind : t.kind = .semicolon := congrArg Lexeme.kind semicolon
    exact ⟨none, forInit_ok.2 (.inl ⟨rfl, t, rfl, kind⟩), rfl⟩
  | some s =>
    have canonical : s.Canonical := each s rfl
    cases s with
    | var decl =>
      cases canonical with
      | var declCanonical =>
        obtain ⟨decl', run, same⟩ :=
          varDecl_completes decl used rest ⟨declCanonical, spell⟩ (by simp)
        refine ⟨some (.var decl'), forInit_ok.2 (.inr (.inl ⟨decl', rfl, run⟩)), ?_⟩
        simp [Stmt.unplaced, same]
    | expr e span =>
      have spelt : (Stmt.expr e span).SpeltBy used := ⟨canonical, spell⟩
      obtain ⟨s, run, same⟩ := exprStmt_completes spelt rest
      obtain ⟨t, tail, rfl, start, noType⟩ := spelt.starts
      refine ⟨some s, forInit_ok.2 (.inr (.inr ⟨s, rfl, run, ?_⟩)), by simp [same]⟩
      rintro _ ⟨⟩
      exact ⟨(startsStmt_other start).1, noType⟩
    | _ => exact absurd (clause _ rfl) (by simp [Stmt.isClause])

theorem for_completes (completes : BodyComplete n body) {init : Option Stmt}
    {test update : Option Expr} {inner : Block Stmt} {span : Span}
    (spelt : (Stmt.forLoop init test update inner span).SpeltBy used) (fits : used.length ≤ n + 1) :
    ∃ s, stmtWith body (used ++ rest) = .ok (s, rest) ∧
      s.unplaced = (Stmt.forLoop init test update inner span).unplaced := by
  obtain ⟨canonical, spell⟩ := spelt
  cases canonical with
  | forLoop clause first testEach updateEach each =>
    obtain ⟨word, tail, rfl, isFor, spell⟩ := spell_lexeme.1 spell
    obtain ⟨paren, tail, rfl, opens, spell⟩ := spell_lexeme.1 spell
    obtain ⟨initUsed, tail, rfl, spellInit, spell⟩ := spell_append.1 spell
    obtain ⟨testUsed, tail, rfl, spellTest, spell⟩ := spell_append.1 spell
    obtain ⟨semicolon, tail, rfl, separates, spell⟩ := spell_lexeme.1 spell
    obtain ⟨updateUsed, tail, rfl, spellUpdate, spell⟩ := spell_append.1 spell
    obtain ⟨closing, innerUsed, rfl, closes, spellInner⟩ := spell_lexeme.1 spell
    simp only [List.length_cons, List.length_append] at fits
    have kind : word.kind = .forWord := congrArg Lexeme.kind isFor
    have isSemicolon : semicolon.kind = .semicolon := congrArg Lexeme.kind separates
    have isClosing : closing.kind = .closeParen := congrArg Lexeme.kind closes
    obtain ⟨init', runInit, sameInit⟩ := forInit_completes clause first spellInit
    obtain ⟨test', runTest, sameTest⟩ := unlessNext_completes (by rfl)
      (by simp [TokenKind.startsExpr]) testEach spellTest isSemicolon
    obtain ⟨update', runUpdate, sameUpdate⟩ := unlessNext_completes (by rfl)
      (by simp [TokenKind.startsExpr]) updateEach spellUpdate isClosing
    obtain ⟨inner', runInner, sameInner⟩ :=
      completes inner innerUsed rest ⟨⟨each, spellInner⟩, by omega⟩ (by simp)
    refine ⟨.forLoop init' test' update' inner' (word.span ++ inner'.span), ?_, ?_⟩
    · simp only [List.cons_append, List.append_assoc, stmtWith, kind]
      exact forStmt_ok.2 ⟨paren, _, init', _, test', semicolon, _, update', closing, _, inner', rfl,
        congrArg Lexeme.kind opens, runInit, runTest, isSemicolon, runUpdate, isClosing, runInner,
        rfl⟩
    · simp [Stmt.unplaced, sameInit, sameTest, sameUpdate, sameInner]

theorem stmtWith_type {t : Token} {ts : List Token} (isType : t.kind.isType) :
    stmtWith body (t :: ts) = (Stmt.var <$> varDecl) (t :: ts) := by
  simp only [stmtWith]
  split <;> simp_all [TokenKind.isType]

theorem stmtWith_expr {t : Token} {ts : List Token} (start : t.kind.startsExpr) :
    stmtWith body (t :: ts) = exprStmt (t :: ts) := by
  simp only [stmtWith]
  split <;> simp_all [TokenKind.startsExpr]

theorem stmtWith_completes (completes : BodyComplete (n + 1) body) :
    Completes (stmtWith body) (fun s used => s.SpeltBy used ∧ used.length ≤ n + 1) Stmt.unplaced
      (· ≠ .elseWord) := by
  rintro s used rest ⟨spelt, fits⟩ follow
  have below : BodyComplete n body := by
    rintro b taken after ⟨bSpelt, bFits⟩ ends
    exact completes b taken after ⟨bSpelt, Nat.le_succ_of_le bFits⟩ ends
  cases s with
  | var decl =>
    cases spelt.1 with
    | var canonical =>
      obtain ⟨decl', run, same⟩ := varDecl_completes decl used rest ⟨canonical, spelt.2⟩ (by simp)
      obtain ⟨t, tail, rfl, -, isType⟩ := spelt.starts
      refine ⟨.var decl', ?_, by simp [Stmt.unplaced, same]⟩
      rw [List.cons_append, stmtWith_type isType]
      exact map_ok.2 ⟨decl', run, rfl⟩
  | block b =>
    cases spelt.1 with
    | block each =>
      obtain ⟨b', run, same⟩ := completes b used rest ⟨⟨each, spelt.2⟩, fits⟩ (by simp)
      have spell := spelt.2
      rw [Stmt.slots, Stmt.blockSlots_eq] at spell
      obtain ⟨t, tail, rfl, opens, -⟩ := spell_lexeme.1 spell
      have kind : t.kind = .openBrace := congrArg Lexeme.kind opens
      refine ⟨.block b', ?_, by simp [Stmt.unplaced, same]⟩
      simp only [List.cons_append, stmtWith, kind]
      exact map_ok.2 ⟨b', run, rfl⟩
  | branch => exact branch_completes below spelt fits follow
  | whileLoop => exact while_completes below spelt fits
  | forLoop => exact for_completes below spelt fits
  | ret => exact return_completes spelt
  | expr e span =>
    obtain ⟨s, run, same⟩ := exprStmt_completes spelt rest
    cases spelt.1 with
    | expr canonical =>
      obtain ⟨exprUsed, tail, rfl, spellExpr, -⟩ := spell_append.1 spelt.2
      obtain ⟨t, more, rfl, start⟩ := (Expr.SpeltBy.of_spell canonical spellExpr).starts
      refine ⟨s, ?_, same⟩
      rw [List.cons_append, List.cons_append, stmtWith_expr start]
      exact run
  | foreign => cases spelt.1

end Body

theorem stmtWithin_completes (bound : Nat) :
    Completes (stmtWithin bound) (fun s used => s.SpeltBy used ∧ used.length ≤ bound) Stmt.unplaced
      (· ≠ .elseWord) := by
  induction bound with
  | zero =>
    rintro s used rest ⟨spelt, fits⟩ -
    obtain ⟨t, tail, rfl, -⟩ := spelt.starts
    simp at fits
  | succ bound ih => exact stmtWith_completes (block_completes ih)

theorem statement_completes : Completes statement Stmt.SpeltBy Stmt.unplaced (· ≠ .elseWord) := by
  intro s used rest spelt follow
  have fits : used.length ≤ (used ++ rest).length := by simp
  exact stmtWithin_completes _ s used rest ⟨spelt, fits⟩ follow

theorem body_completes : Completes body Block.SpeltBy Block.unplaced anything := by
  intro b used rest spelt follow
  have fits : used.length ≤ (used ++ rest).length + 1 := by
    simp only [List.length_append]
    omega
  exact block_completes (stmtWithin_completes _) b used rest ⟨spelt, fits⟩ follow

/-! ## Declarations -/

theorem param_completes : Completes param Param.SpeltBy Param.unplaced anything := by
  rintro p used rest ⟨canonical, spell⟩ -
  obtain ⟨type, tail, rfl, typeWord, spell⟩ := spell_lexeme.1 spell
  obtain ⟨name, tail, rfl, nameWord, spell⟩ := spell_lexeme.1 spell
  obtain rfl := spell_nil.1 spell
  obtain ⟨isType, isName, typeSpelling, nameSpelling⟩ :=
    typed_kinds canonical.type canonical.name typeWord nameWord
  refine ⟨⟨type.spelling, name.spelling, type.span ++ name.span⟩, ?_, ?_⟩
  · exact param_ok.2 ⟨type, name, rfl, isType, isName, rfl⟩
  · simp [Param.unplaced, typeSpelling, nameSpelling]

theorem params_completes {list : List Param} (nonempty : list ≠ []) (each : ∀ p ∈ list, p.Canonical)
    {used : List Token} (spell : Spell (Param.listSlots list) used)
    (closed : ∀ t ∈ rest.head?, t.kind = .closeParen) :
    ∃ list', unlessNext .closeParen params (used ++ rest) = .ok (some list', rest) ∧
      list'.map Param.unplaced = list.map Param.unplaced := by
  cases list with
  | nil => exact absurd rfl nonempty
  | cons first more =>
    obtain ⟨canonical, others⟩ := List.forall_mem_cons.1 each
    obtain ⟨firstUsed, tail, rfl, spellFirst, spellMore⟩ := spell_append.1 spell
    obtain ⟨more, rfl, commas⟩ := commaTail_of_spell others spellMore
    have items : Completes param Param.SpeltBy Param.unplaced
        fun kind => kind = .comma ∨ kind = .closeParen := by
      intro p taken after spelt _
      exact param_completes p taken after spelt (by simp)
    have fits : more.length ≤ (firstUsed ++ (tail ++ rest)).length := by
      have := commas.length_le
      simp only [List.length_append]
      omega
    obtain ⟨p, list, run, same, sameMore⟩ :=
      commaList_completes items ⟨canonical, spellFirst⟩ commas fits closed
    refine ⟨p :: list.map (·.2), ?_, ?_⟩
    · obtain ⟨type, typeTail, rfl, typeWord, -⟩ := spell_lexeme.1 spellFirst
      have kind : type.kind = .ofWord first.type := congrArg Lexeme.kind typeWord
      have isType : type.kind.isType := kind ▸ canonical.type
      refine unlessNext_ok.2 (.inr ⟨p :: list.map (·.2), rfl, ?_, ?_⟩)
      · rw [List.append_assoc]
        exact map_ok.2 ⟨(p, list), run, rfl⟩
      · rintro _ ⟨⟩ closes
        rw [closes] at isType
        cases isType
    · have tails : list.map (·.2.unplaced) = more.map (·.2.unplaced) := by
        simpa [Function.comp_def] using congrArg (List.map Prod.snd) sameMore
      simpa [same, Function.comp_def] using tails

theorem paramList_completes {params? : Option (List Param)}
    (each : ∀ list ∈ params?, list ≠ [] ∧ ∀ p ∈ list, p.Canonical) {used : List Token}
    (spell : Spell (Param.listSlots (params?.getD [])) used) {closing : Token}
    (closes : closing.kind = .closeParen) :
    ∃ list?, unlessNext .closeParen params (used ++ closing :: rest) =
      .ok (list?, closing :: rest) ∧
        list?.map (·.map Param.unplaced) = params?.map (·.map Param.unplaced) := by
  cases params? with
  | none =>
    obtain rfl := spell_nil.1 spell
    exact ⟨none, unlessNext_ok.2 (.inl ⟨rfl, rfl, closing, rfl, closes⟩), rfl⟩
  | some list =>
    obtain ⟨nonempty, canonical⟩ := each list rfl
    have closed : ∀ t ∈ (closing :: rest).head?, t.kind = .closeParen := by simp [closes]
    obtain ⟨list', run, same⟩ := params_completes nonempty canonical spell closed
    exact ⟨some list', run, by simp [same]⟩

theorem functionDecl_completes {decl : FunctionDecl} {type name : Token} {used : List Token}
    (spelt : decl.SpeltBy (type :: name :: used)) (rest : List Token) :
    ∃ decl', functionDecl type name (used ++ rest) = .ok (decl', rest) ∧
      decl'.unplaced = decl.unplaced := by
  obtain ⟨canonical, spell⟩ := spelt
  obtain ⟨_, _, same, typeWord, spell⟩ := spell_lexeme.1 spell
  obtain ⟨rfl, rfl⟩ := List.cons.inj same
  obtain ⟨_, _, same, nameWord, spell⟩ := spell_lexeme.1 spell
  obtain ⟨rfl, rfl⟩ := List.cons.inj same
  obtain ⟨paren, tail, rfl, opens, spell⟩ := spell_lexeme.1 spell
  obtain ⟨paramsUsed, tail, rfl, spellParams, spell⟩ := spell_append.1 spell
  obtain ⟨closing, bodyUsed, rfl, closes, spellBody⟩ := spell_lexeme.1 spell
  have isClosing : closing.kind = .closeParen := congrArg Lexeme.kind closes
  obtain ⟨inner, runBody, sameBody⟩ :=
    body_completes decl.body bodyUsed rest ⟨canonical.body, spellBody⟩ (by simp)
  obtain ⟨params?, runParams, sameParams⟩ :=
    paramList_completes canonical.params spellParams isClosing
  have typeSpelling : type.spelling = decl.returnType := congrArg Lexeme.spelling typeWord
  have nameKind : name.kind = .ofWord decl.name := congrArg Lexeme.kind nameWord
  have nameSpelling : name.spelling = decl.name := congrArg Lexeme.spelling nameWord
  refine ⟨_, functionDecl_ok.2 ⟨paren, paramsUsed ++ closing :: (bodyUsed ++ rest), params?,
    closing, bodyUsed ++ rest, inner, by simp, congrArg Lexeme.kind opens, runParams, isClosing,
    runBody, rfl⟩, ?_⟩
  rcases canonical.name_cases with ⟨kind, own, entry⟩ | ⟨kind, own, entry⟩ <;>
    simp [FunctionDecl.unplaced, typeSpelling, nameKind, nameSpelling, kind, own, entry, sameParams,
      sameBody]

theorem topLevel_other {t : Token} {ts : List Token} (noType : t.kind.isType = false) :
    topLevel (t :: ts) = (TopLevel.statement <$> statement) (t :: ts) := by
  cases ts with
  | nil => simp [topLevel, noType]
  | cons name more =>
    have noFunction : startsFunction (t :: name :: more) = false := by
      cases more <;> simp [startsFunction, noType]
    simp [topLevel, noFunction, noType]

/-- Behind the name of a variable stands no parenthesis. -/
theorem global_startsFunction {init : Option Expr} {type name : Token} {tail : List Token}
    (spell : Spell (Expr.initSlots init ++ [.fixed .semicolon]) tail) :
    startsFunction (type :: name :: (tail ++ rest)) = false := by
  have third : ∃ sign more, tail = sign :: more ∧ sign.kind ≠ .openParen := by
    cases init with
    | none =>
      obtain ⟨sign, more, rfl, same, -⟩ := spell_lexeme.1 spell
      have kind : sign.kind = .semicolon := congrArg Lexeme.kind same
      exact ⟨sign, more, rfl, by simp [kind]⟩
    | some e =>
      obtain ⟨sign, more, rfl, same, -⟩ := spell_lexeme.1 spell
      have kind : sign.kind = .assign := congrArg Lexeme.kind same
      exact ⟨sign, more, rfl, by simp [kind]⟩
  obtain ⟨sign, more, rfl, other⟩ := third
  simp [startsFunction, other]

theorem topLevel_completes :
    Completes topLevel TopLevel.SpeltBy TopLevel.unplaced (· ≠ .elseWord) := by
  rintro node used rest ⟨canonical, spell⟩ follow
  cases canonical with
  | @global decl canonical =>
    obtain ⟨decl', run, same⟩ := varDecl_completes decl used rest ⟨canonical, spell⟩ (by simp)
    refine ⟨.global decl', ?_, by simp [TopLevel.unplaced, same]⟩
    obtain ⟨type, tail, rfl, typeWord, spellName⟩ := spell_lexeme.1 spell
    obtain ⟨name, tail, rfl, nameWord, spellTail⟩ := spell_lexeme.1 spellName
    have typeKind : type.kind = .ofWord decl.type := congrArg Lexeme.kind typeWord
    have isType : type.kind.isType := typeKind ▸ canonical.type
    have noFunction : startsFunction (type :: name :: (tail ++ rest)) = false :=
      global_startsFunction spellTail
    simp only [List.cons_append] at run ⊢
    simp only [topLevel, noFunction, isType, if_true, Bool.false_eq_true, if_false]
    exact map_ok.2 ⟨decl', run, rfl⟩
  | @function decl canonical =>
    obtain ⟨type, tail, rfl, typeWord, spellName⟩ := spell_lexeme.1 spell
    obtain ⟨name, tail, rfl, nameWord, spellParen⟩ := spell_lexeme.1 spellName
    obtain ⟨decl', run, same⟩ := functionDecl_completes ⟨canonical, spell⟩ rest
    refine ⟨.function decl', ?_, by simp [TopLevel.unplaced, same]⟩
    have starts : startsFunction (type :: name :: (tail ++ rest)) = true := by
      obtain ⟨paren, more, rfl, opens, -⟩ := spell_lexeme.1 spellParen
      have typeKind : type.kind = .ofWord decl.returnType := congrArg Lexeme.kind typeWord
      have isType : type.kind.isType := typeKind ▸ canonical.returnType
      have nameKind : name.kind = .ofWord decl.name := congrArg Lexeme.kind nameWord
      have callable : name.kind.isCallable := by
        rcases canonical.name_cases with ⟨kind, -⟩ | ⟨kind, -⟩ <;> rw [nameKind, kind] <;> rfl
      have isParen : paren.kind = .openParen := congrArg Lexeme.kind opens
      simp [startsFunction, isType, callable, isParen]
    simp only [List.cons_append, topLevel, starts, if_true]
    exact map_ok.2 ⟨decl', run, rfl⟩
  | @statement s other canonical =>
    have spelt : s.SpeltBy used := ⟨canonical, spell⟩
    obtain ⟨s', run, same⟩ := statement_completes s used rest spelt follow
    obtain ⟨t, tail, rfl, -, noType⟩ := spelt.starts
    refine ⟨.statement s', ?_, by simp [TopLevel.unplaced, same]⟩
    rw [List.cons_append, topLevel_other (noType.trans other)]
    exact map_ok.2 ⟨s', run, rfl⟩

theorem declarations_completes {nodes : List TopLevel} (each : ∀ node ∈ nodes, node.Canonical)
    {used : List Token} (spell : Spell (between (nodes.map TopLevel.slots)) used) :
    ∃ nodes', declarations used = .ok (nodes', []) ∧
      nodes'.map TopLevel.unplaced = nodes.map TopLevel.unplaced := by
  have item : Completes topLevel (fun node taken => (node.Canonical ∧ Spell node.slots taken) ∧
      taken.length ≤ used.length) TopLevel.unplaced (· ≠ .elseWord) := by
    rintro node taken rest ⟨spelt, -⟩ follow
    exact topLevel_completes node taken rest spelt follow
  have loop : ∃ nodes', sequence topLevel (fun _ => false) used.length (used ++ []) =
      .ok (nodes', []) ∧ nodes'.map TopLevel.unplaced = nodes.map TopLevel.unplaced :=
    sequence_completes item (fun node => TopLevel.Canonical.starts) (by simp) each spell
      (Nat.le_refl _) (Nat.le_refl _) (by simp)
  rw [List.append_nil] at loop
  exact loop

end Grammar

/-! ## Programs -/

theorem splitAtEnd_append {tokens rest : List Token} {last : Token}
    (inside : ∀ t ∈ tokens, t.kind ≠ .endOfInput) (ends : last.isEnd) :
    splitAtEnd (tokens ++ last :: rest) = (tokens, last) := by
  have body : (tokens ++ last :: rest).takeWhile (!·.isEnd) = tokens := by
    rw [List.takeWhile_append_of_pos fun t member => by simpa [Token.isEnd] using inside t member]
    simp [ends]
  simp [splitAtEnd, body]

/-- Whatever semicolons stand at the boundaries, a canonical program is read from its tokens. -/
theorem Program.ofTokens_of_spell {p : Program} (canonical : p.Canonical) {tokens : List Token}
    (spell : Spell p.slots tokens) {last : Token} (ends : last.isEnd) (rest : List Token) :
    ∃ q, Program.ofTokens (tokens ++ last :: rest) = .ok q ∧ q.unplaced = p.unplaced := by
  obtain ⟨nodes, run, same⟩ := Grammar.declarations_completes canonical spell
  have inside := spell.endless p.slots_endless
  simp only [ofTokens, splitAtEnd_append inside ends, run]
  exact ⟨_, rfl, by simp [unplaced, same]⟩

/-- A canonical program is read from its printed form with an end token behind it, and is
returned but for its places. Semicolons at the boundaries between statements change nothing, and
no other canonical program prints alike. -/
theorem Program.parse_print {p : Program} (canonical : p.Canonical) :
    (∀ (tokens : List Token) (last : Token) (rest : List Token),
      tokens.map Token.lexeme = p.lexemes → last.isEnd →
        ∃ q, Program.ofTokens (tokens ++ last :: rest) = .ok q ∧ q.unplaced = p.unplaced) ∧
    (∀ (tokens : List Token) (last : Token) (rest : List Token),
      Spell p.slots tokens → last.isEnd →
        ∃ q, Program.ofTokens (tokens ++ last :: rest) = .ok q ∧ q.unplaced = p.unplaced) ∧
    ∀ q : Program, q.Canonical → q.lexemes = p.lexemes → q.unplaced = p.unplaced := by
  refine ⟨?_, ?_, ?_⟩
  · intro tokens last rest same ends
    exact ofTokens_of_spell canonical (spell_of_lexemes same) ends rest
  · intro tokens last rest spell ends
    exact ofTokens_of_spell canonical spell ends rest
  · intro q qCanonical same
    -- Both are read from one list of tokens, whose places do not matter.
    have lexemes : (p.lexemes.map Lexeme.token).map Token.lexeme = p.lexemes := by
      simp [Function.comp_def]
    have ends : Token.isEnd ⟨.endOfInput, [], .origin⟩ = true := rfl
    obtain ⟨p', run, pSame⟩ := ofTokens_of_spell canonical (spell_of_lexemes lexemes) ends []
    obtain ⟨q', run', qSame⟩ :=
      ofTokens_of_spell qCanonical (spell_of_lexemes (lexemes.trans same.symm)) ends []
    rw [run] at run'
    cases run'
    exact qSame.symm.trans pSame

/-- The tree of `int x = a - b - c;`. -/
def Program.differences : Program :=
  let name (t : Text) : Expr := .identifier ⟨t, default⟩ t
  let first : Expr := .binary ⟨"a-b", default⟩ .sub (name "a") (name "b")
  ⟨[.global ⟨"int", "x", some (.binary ⟨"a-b-c", default⟩ .sub first (name "c")), default⟩],
    default⟩

theorem Program.differences_canonical : differences.Canonical := by
  have name (t : Text) (spells : TokenKind.identifier.spells t) :
      (Expr.identifier ⟨t, default⟩ t).Canonical :=
    @Expr.Canonical.identifier ⟨t, default⟩ spells
  refine List.forall_mem_singleton.2 (.global ⟨by decide, by decide, ?_⟩)
  rintro _ ⟨⟩
  refine .binary (.binary (name "a" (by decide)) (name "b" (by decide)) ?_ ?_ ?_)
    (name "c" (by decide)) ?_ ?_ ?_ <;> decide

theorem Program.differences_parse_print : ∃ q, Program.ofTokens
    ((differences.lexemes.map fun l => ⟨l.kind, l.spelling, .origin⟩) ++
      [⟨.endOfInput, [], .origin⟩]) = .ok q ∧ q.unplaced = differences.unplaced :=
  (parse_print differences_canonical).1 _ _ [] (by decide) rfl

end ProcCheck
