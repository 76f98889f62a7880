import ProcCheck.Proofs.Grammar.Equations
import ProcCheck.Proofs.Grammar.ExpressionSoundness

/-!
# Soundness of the readers of programs

What a reader returns is canonical, and the tokens that it took are spelt out of the slots of
what it returns: its lexemes in order, and semicolons at its boundaries only. The readers of
statements call each other through blocks, so they are sound at each bound if they are at the
bound below. `Program.canonical_of_ofTokens` is the result for whole lists of tokens.
-/

namespace ProcCheck

open Slot

namespace Grammar

variable {ts rest : List Token}

/-! ## Parts of statements -/

theorem unlessNext_reads {stop : TokenKind} {ts : List Token} {e : Option Expr}
    (spelt : AllSpelt ts) (run : unlessNext stop expression ts = .ok (e, rest)) :
    ∃ used, ts = used ++ rest ∧ (∀ a ∈ e, a.Canonical) ∧ Spell (Expr.optionSlots e) used := by
  rcases unlessNext_ok.1 run with ⟨rfl, rfl, -⟩ | ⟨a, rfl, runExpr, -⟩
  · exact ⟨[], rfl, by simp, .done⟩
  · obtain ⟨used, rfl, read⟩ := expression_reads _ _ _ spelt runExpr
    exact ⟨used, rfl, by simpa using read.canonical, read.spell⟩

theorem initializes_reads {init : Option Expr} (spelt : AllSpelt ts)
    (initializes : Initializes ts init rest) :
    ∃ used, ts = used ++ rest ∧ (∀ e ∈ init, e.Canonical) ∧ Spell (Expr.initSlots init) used := by
  rcases initializes with ⟨sign, tail, e, rfl, isSign, rfl, runExpr⟩ | ⟨rfl, rfl, -⟩
  · obtain ⟨signSpelt, tailSpelt⟩ := allSpelt_cons.1 spelt
    obtain ⟨used, rfl, read⟩ := expression_reads _ _ _ tailSpelt runExpr
    have signLexeme := Token.lexeme_fixed signSpelt isSign rfl
    exact ⟨sign :: used, rfl, by simpa using read.canonical, .cons signLexeme read.spell⟩
  · exact ⟨[], rfl, by simp, .done⟩

/-- A type word and an identifier, as declarations and parameters start with. -/
theorem typed_name {type name : Token} (typeSpelt : type.isSpelt) (isType : type.kind.isType)
    (nameSpelt : name.isSpelt) (isName : name.kind = .identifier) :
    TokenKind.spellsType type.spelling ∧ TokenKind.identifier.spells name.spelling ∧
      type.lexeme = .word type.spelling ∧ name.lexeme = .word name.spelling := by
  have typeWord := Token.lexeme_word typeSpelt (.inr isType)
  have nameWord := Token.lexeme_word nameSpelt (.inl (by simp [isName, TokenKind.isCallable]))
  have same : type.kind = TokenKind.ofWord type.spelling := congrArg Lexeme.kind typeWord
  refine ⟨?_, Token.spells_of_kind nameSpelt isName, typeWord, nameWord⟩
  rwa [TokenKind.spellsType, ← same]

theorem varDecl_reads : Reads varDecl VarDecl.SpeltBy := by
  intro ts decl rest spelt run
  obtain ⟨type, name, tail, init, last, rfl, isType, isName, initializes, isLast, rfl⟩ :=
    varDecl_ok.1 run
  simp only [allSpelt_cons] at spelt
  obtain ⟨typeSpells, nameSpells, typeWord, nameWord⟩ :=
    typed_name spelt.1 isType spelt.2.1 isName
  obtain ⟨used, rfl, each, spell⟩ := initializes_reads spelt.2.2 initializes
  simp only [allSpelt_append, allSpelt_cons] at spelt
  have lastLexeme := Token.lexeme_fixed spelt.2.2.2.1 isLast rfl
  refine ⟨type :: name :: (used ++ [last]), by simp, ⟨typeSpells, nameSpells, each⟩, ?_⟩
  exact .cons typeWord (.cons nameWord (spell.append (.cons lastLexeme .done)))

theorem exprStmt_reads : Reads exprStmt Stmt.SpeltBy := by
  intro ts s rest spelt run
  obtain ⟨e, last, runExpr, isLast, rfl⟩ := exprStmt_ok.1 run
  obtain ⟨used, rfl, read⟩ := expression_reads _ _ _ spelt runExpr
  simp only [allSpelt_append, allSpelt_cons] at spelt
  have lastLexeme := Token.lexeme_fixed spelt.2.1 isLast rfl
  exact ⟨used ++ [last], by simp, .expr read.canonical, read.spell.append (.cons lastLexeme .done)⟩

theorem condition_reads (opening : Expectation) : Reads (condition opening) fun e used =>
    e.Canonical ∧
      Spell (.fixed .openParen :: (e.slots ++ [.fixed .closeParen])) used := by
  intro ts e rest spelt run
  obtain ⟨paren, tail, closing, rfl, isParen, runExpr, isClosing⟩ := condition_ok.1 run
  obtain ⟨parenSpelt, tailSpelt⟩ := allSpelt_cons.1 spelt
  obtain ⟨used, rfl, read⟩ := expression_reads _ _ _ tailSpelt runExpr
  simp only [allSpelt_append, allSpelt_cons] at tailSpelt
  have opens := Token.lexeme_fixed parenSpelt isParen rfl
  have closes := Token.lexeme_fixed tailSpelt.2.1 isClosing rfl
  exact ⟨paren :: (used ++ [closing]), by simp, read.canonical,
    .cons opens (read.spell.append (.cons closes .done))⟩

/-! ## Sequences and blocks -/

/-- A sequence is sound if its items are. It leaves tokens only where it has to stop, provided
that the bound allows for all of them. -/
theorem sequence_reads {α : Type} {item : Parse α} {stop : TokenKind → Bool} {C : α → Prop}
    {slots : α → List Slot}
    (reads : Reads item fun a used => (C a ∧ Spell (slots a) used) ∧ used ≠ [])
    {bound : Nat} {items : List α} (spelt : AllSpelt ts)
    (run : sequence item stop bound ts = .ok (items, rest)) :
    ∃ used, ts = used ++ rest ∧ (∀ a ∈ items, C a) ∧ Spell (between (items.map slots)) used ∧
      (ts.length ≤ bound → ∀ t ∈ rest.head?, stop t.kind) := by
  induction bound generalizing ts items with
  | zero =>
    obtain ⟨rfl, rfl⟩ := pure_ok.1 run
    refine ⟨[], rfl, by simp, .pass .done, fun fits => ?_⟩
    simp [List.length_eq_zero_iff.1 (Nat.le_zero.1 fits)]
  | succ bound ih =>
    have stopped (stops : ∀ t ∈ ts.head?, stop t.kind) : ∃ used, ts = used ++ rest ∧
        (∀ a ∈ items, C a) ∧ Spell (between (items.map slots)) used ∧
        (ts.length ≤ bound + 1 → ∀ t ∈ rest.head?, stop t.kind) := by
      rw [sequence_stopped stops] at run
      cases run
      exact ⟨[], rfl, by simp, .pass .done, fun _ => stops⟩
    cases ts with
    | nil => exact stopped (by simp)
    | cons t tail =>
      by_cases stops : stop t.kind
      · exact stopped (by simpa using stops)
      by_cases semicolon : t.kind = .semicolon
      · rw [sequence_semicolon stops semicolon] at run
        obtain ⟨tSpelt, tailSpelt⟩ := allSpelt_cons.1 spelt
        obtain ⟨used, rfl, each, spell, stopped⟩ := ih tailSpelt run
        have empty := Token.lexeme_fixed tSpelt semicolon rfl
        -- The semicolon joins those at the first boundary of what follows.
        have first : ∃ more, between (items.map slots) = .boundary :: more := by
          cases items <;> simp
        obtain ⟨more, same⟩ := first
        rw [same] at spell ⊢
        refine ⟨t :: used, rfl, each, .empty empty spell, fun fits => stopped ?_⟩
        exact Nat.le_of_succ_le_succ fits
      · rw [sequence_item stops semicolon] at run
        obtain ⟨first, mid, runItem, runRest⟩ := bind_ok.1 run
        obtain ⟨others, runOthers, rfl⟩ := map_ok.1 runRest
        obtain ⟨used, same, ⟨canonical, spell⟩, progress⟩ := reads _ _ _ spelt runItem
        rw [same] at spelt ⊢
        obtain ⟨more, rfl, each, spellMore, stopped⟩ := ih (allSpelt_append.1 spelt).2 runOthers
        refine ⟨used ++ more, by simp, List.forall_mem_cons.2 ⟨canonical, each⟩, ?_, ?_⟩
        · rw [List.map_cons, between_cons]
          exact .pass (spell.append spellMore)
        · intro fits
          have := List.length_pos_iff.2 progress
          simp only [List.length_append] at fits stopped
          exact stopped (by omega)

theorem block_reads {stmt : Parse Stmt} (reads : Reads stmt Stmt.SpeltBy) (bound : Nat) :
    Reads (block stmt bound) Block.SpeltBy := by
  intro ts body rest spelt run
  obtain ⟨opening, tail, statements, closing, rfl, isOpening, runAll, isClosing, rfl⟩ :=
    block_ok.1 run
  obtain ⟨openingSpelt, tailSpelt⟩ := allSpelt_cons.1 spelt
  have items : Reads stmt fun s used => s.SpeltBy used ∧ used ≠ [] := reads.mono fun s used spelt =>
    ⟨spelt, by obtain ⟨t, more, rfl, -⟩ := spelt.starts; simp⟩
  obtain ⟨used, rfl, each, spell, -⟩ := sequence_reads items tailSpelt runAll
  simp only [allSpelt_append, allSpelt_cons] at tailSpelt
  have opens := Token.lexeme_fixed openingSpelt isOpening rfl
  have closes := Token.lexeme_fixed tailSpelt.2.1 isClosing rfl
  refine ⟨opening :: (used ++ [closing]), by simp, each, ?_⟩
  rw [Stmt.blockSlots_eq]
  exact .cons opens (spell.append (.cons closes .done))

/-! ## Statements -/

section Body

variable {body : Parse (Block Stmt)} {first : Token}

theorem returnStmt_reads (isReturn : first.lexeme = .fixed .returnWord) :
    Reads (returnStmt first) fun s used => s.SpeltBy (first :: used) := by
  intro ts s rest spelt run
  obtain ⟨value, last, runValue, isLast, rfl⟩ := returnStmt_ok.1 run
  obtain ⟨used, rfl, each, spell⟩ := unlessNext_reads spelt runValue
  simp only [allSpelt_append, allSpelt_cons] at spelt
  have lastLexeme := Token.lexeme_fixed spelt.2.1 isLast rfl
  exact ⟨used ++ [last], by simp, .ret each, .cons isReturn (spell.append (.cons lastLexeme .done))⟩

theorem alternates_reads (sound : Reads body Block.SpeltBy) {elseBlock : Option (Block Stmt)}
    (spelt : AllSpelt ts) (alternates : Alternates body ts elseBlock rest) :
    ∃ used, ts = used ++ rest ∧ (∀ b ∈ elseBlock, ∀ s ∈ b.statements, s.Canonical) ∧
      Spell (Stmt.slots.elseSlots elseBlock) used := by
  rcases alternates with ⟨word, tail, b, rfl, isElse, rfl, runBody⟩ | ⟨rfl, rfl, -⟩
  · obtain ⟨wordSpelt, tailSpelt⟩ := allSpelt_cons.1 spelt
    obtain ⟨used, rfl, each, spell⟩ := sound _ _ _ tailSpelt runBody
    have wordLexeme := Token.lexeme_fixed wordSpelt isElse rfl
    exact ⟨word :: used, rfl, by simpa using each, .cons wordLexeme spell⟩
  · exact ⟨[], rfl, by simp, .done⟩

theorem ifStmt_reads (sound : Reads body Block.SpeltBy) (isIf : first.lexeme = .fixed .ifWord) :
    Reads (ifStmt body first) fun s used => s.SpeltBy (first :: used) := by
  intro ts s rest spelt run
  obtain ⟨test, mid, thenBlock, after, elseBlock, runTest, runThen, alternates, rfl⟩ :=
    ifStmt_ok.1 run
  obtain ⟨testUsed, rfl, canonical, testSpell⟩ := condition_reads _ _ _ _ spelt runTest
  obtain ⟨-, midSpelt⟩ := allSpelt_append.1 spelt
  obtain ⟨thenUsed, rfl, thenEach, thenSpell⟩ := sound _ _ _ midSpelt runThen
  obtain ⟨-, afterSpelt⟩ := allSpelt_append.1 midSpelt
  obtain ⟨elseUsed, rfl, elseEach, elseSpell⟩ := alternates_reads sound afterSpelt alternates
  refine ⟨testUsed ++ (thenUsed ++ elseUsed), by simp, .branch canonical thenEach elseEach, ?_⟩
  refine .cons isIf ?_
  simpa using testSpell.append (thenSpell.append elseSpell)

theorem whileStmt_reads (sound : Reads body Block.SpeltBy) (isWhile : first.lexeme = .fixed .whileWord) :
    Reads (whileStmt body first) fun s used => s.SpeltBy (first :: used) := by
  intro ts s rest spelt run
  obtain ⟨test, mid, inner, runTest, runBody, rfl⟩ := whileStmt_ok.1 run
  obtain ⟨testUsed, rfl, canonical, testSpell⟩ := condition_reads _ _ _ _ spelt runTest
  obtain ⟨-, midSpelt⟩ := allSpelt_append.1 spelt
  obtain ⟨used, rfl, each, spell⟩ := sound _ _ _ midSpelt runBody
  refine ⟨testUsed ++ used, by simp, .whileLoop canonical each, .cons isWhile ?_⟩
  simpa using testSpell.append spell

theorem forInit_reads : Reads forInit fun init used =>
    (∀ s ∈ init, s.isClause) ∧ (∀ s ∈ init, s.Canonical) ∧
      Spell (Stmt.slots.initSlots init) used := by
  intro ts init rest spelt run
  rcases forInit_ok.1 run with ⟨rfl, t, rfl, isSemicolon⟩ | ⟨decl, rfl, runDecl⟩ |
    ⟨s, rfl, runStmt, -⟩
  · have empty := Token.lexeme_fixed (allSpelt_cons.1 spelt).1 isSemicolon rfl
    exact ⟨[t], rfl, by simp, by simp, .cons empty .done⟩
  · obtain ⟨used, rfl, canonical, spell⟩ := varDecl_reads _ _ _ spelt runDecl
    exact ⟨used, rfl, by simp [Stmt.isClause], by simpa using .var canonical, spell⟩
  · obtain ⟨used, rfl, canonical, spell⟩ := exprStmt_reads _ _ _ spelt runStmt
    obtain ⟨e, last, -, -, rfl⟩ := exprStmt_ok.1 runStmt
    exact ⟨used, rfl, by simp [Stmt.isClause], by simpa using canonical, spell⟩

theorem forStmt_reads (sound : Reads body Block.SpeltBy) (isFor : first.lexeme = .fixed .forWord) :
    Reads (forStmt body first) fun s used => s.SpeltBy (first :: used) := by
  intro ts s rest spelt run
  obtain ⟨paren, tail, init, afterInit, test, semicolon, afterTest, update, closing, afterUpdate,
    inner, rfl, isParen, runInit, runTest, isSemicolon, runUpdate, isClosing, runBody, rfl⟩ :=
    forStmt_ok.1 run
  obtain ⟨parenSpelt, tailSpelt⟩ := allSpelt_cons.1 spelt
  have opens := Token.lexeme_fixed parenSpelt isParen rfl
  obtain ⟨initUsed, rfl, clause, initEach, initSpell⟩ := forInit_reads _ _ _ tailSpelt runInit
  obtain ⟨-, afterInitSpelt⟩ := allSpelt_append.1 tailSpelt
  obtain ⟨testUsed, rfl, testEach, testSpell⟩ := unlessNext_reads afterInitSpelt runTest
  simp only [allSpelt_append, allSpelt_cons] at afterInitSpelt
  obtain ⟨-, semicolonSpelt, afterTestSpelt⟩ := afterInitSpelt
  have separates := Token.lexeme_fixed semicolonSpelt isSemicolon rfl
  obtain ⟨updateUsed, rfl, updateEach, updateSpell⟩ := unlessNext_reads afterTestSpelt runUpdate
  simp only [allSpelt_append, allSpelt_cons] at afterTestSpelt
  obtain ⟨-, closingSpelt, afterUpdateSpelt⟩ := afterTestSpelt
  have closes := Token.lexeme_fixed closingSpelt isClosing rfl
  obtain ⟨used, rfl, each, spell⟩ := sound _ _ _ afterUpdateSpelt runBody
  refine ⟨paren :: (initUsed ++ (testUsed ++ semicolon :: (updateUsed ++ closing :: used))),
    by simp, .forLoop clause initEach testEach updateEach each, ?_⟩
  refine .cons isFor (.cons opens (initSpell.append (testSpell.append ?_)))
  exact .cons separates (updateSpell.append (.cons closes spell))

theorem stmtWith_reads (sound : Reads body Block.SpeltBy) : Reads (stmtWith body) Stmt.SpeltBy := by
  intro ts s rest spelt run
  cases ts with
  | nil => exact exprStmt_reads _ _ _ spelt run
  | cons t tail =>
    obtain ⟨tSpelt, tailSpelt⟩ := allSpelt_cons.1 spelt
    have behind {p : Parse Stmt} (reads : Reads p fun s used => s.SpeltBy (t :: used))
        (runTail : p tail = .ok (s, rest)) :
        ∃ used, t :: tail = used ++ rest ∧ s.SpeltBy used := by
      obtain ⟨used, rfl, read⟩ := reads _ _ _ tailSpelt runTail
      exact ⟨t :: used, rfl, read⟩
    simp only [stmtWith] at run
    split at run
    case h_1 =>
      obtain ⟨decl, runDecl, rfl⟩ := map_ok.1 run
      obtain ⟨used, same, canonical, spell⟩ := varDecl_reads _ _ _ spelt runDecl
      exact ⟨used, same, .var canonical, spell⟩
    case h_2 kind => exact behind (ifStmt_reads sound (Token.lexeme_fixed tSpelt kind rfl)) run
    case h_3 kind => exact behind (whileStmt_reads sound (Token.lexeme_fixed tSpelt kind rfl)) run
    case h_4 kind => exact behind (forStmt_reads sound (Token.lexeme_fixed tSpelt kind rfl)) run
    case h_5 kind => exact behind (returnStmt_reads (Token.lexeme_fixed tSpelt kind rfl)) run
    case h_6 =>
      obtain ⟨b, runBody, rfl⟩ := map_ok.1 run
      obtain ⟨used, same, each, spell⟩ := sound _ _ _ spelt runBody
      exact ⟨used, same, .block each, spell⟩
    case h_7 => exact exprStmt_reads _ _ _ spelt run

end Body

theorem stmtWithin_reads (bound : Nat) : Reads (stmtWithin bound) Stmt.SpeltBy := by
  induction bound with
  | zero => exact exprStmt_reads
  | succ bound ih => exact stmtWith_reads (block_reads ih bound)

/-! ## Declarations -/

theorem param_reads : Reads param Param.SpeltBy := by
  intro ts p rest spelt run
  obtain ⟨type, name, rfl, isType, isName, rfl⟩ := param_ok.1 run
  simp only [allSpelt_cons] at spelt
  obtain ⟨typeSpells, nameSpells, typeWord, nameWord⟩ :=
    typed_name spelt.1 isType spelt.2.1 isName
  exact ⟨[type, name], rfl, ⟨typeSpells, nameSpells⟩, .cons typeWord (.cons nameWord .done)⟩

theorem commaTail_params {more : List (Token × Param)} {tail : List Token}
    (read : CommaTail Param.SpeltBy more tail) :
    (∀ p ∈ more.map (·.2), p.Canonical) ∧
      Spell ((more.map (·.2)).flatMap fun p => .fixed .comma :: p.slots) tail := by
  induction more generalizing tail with
  | nil =>
    cases read
    exact ⟨by simp, .done⟩
  | cons next rest ih =>
    obtain ⟨used, tail, rfl, comma, ⟨canonical, spell⟩, further⟩ := read
    obtain ⟨each, spellMore⟩ := ih further
    exact ⟨List.forall_mem_cons.2 ⟨canonical, each⟩, .cons comma (spell.append spellMore)⟩

theorem params_reads : Reads params fun list used =>
    (list ≠ [] ∧ ∀ p ∈ list, p.Canonical) ∧ Spell (Param.listSlots list) used := by
  intro ts list rest spelt run
  obtain ⟨⟨first, more⟩, runList, rfl⟩ := map_ok.1 run
  obtain ⟨used, rfl, firstUsed, tail, rfl, ⟨canonical, spell⟩, readMore⟩ :=
    commaList_reads param_reads _ _ _ _ spelt runList
  obtain ⟨each, spellMore⟩ := commaTail_params readMore
  exact ⟨firstUsed ++ tail, rfl, ⟨by simp, List.forall_mem_cons.2 ⟨canonical, each⟩⟩,
    spell.append spellMore⟩

theorem paramList_reads {params? : Option (List Param)} (spelt : AllSpelt ts)
    (run : unlessNext .closeParen params ts = .ok (params?, rest)) :
    ∃ used, ts = used ++ rest ∧ (∀ list ∈ params?, list ≠ [] ∧ ∀ p ∈ list, p.Canonical) ∧
      Spell (Param.listSlots (params?.getD [])) used := by
  rcases unlessNext_ok.1 run with ⟨rfl, rfl, -⟩ | ⟨list, rfl, runList, -⟩
  · exact ⟨[], rfl, by simp, .done⟩
  · obtain ⟨used, rfl, canonical, spell⟩ := params_reads _ _ _ spelt runList
    exact ⟨used, rfl, by simpa using canonical, spell⟩

theorem functionDecl_reads {type name : Token} (typeSpelt : type.isSpelt)
    (isType : type.kind.isType) (nameSpelt : name.isSpelt) (callable : name.kind.isCallable) :
    Reads (functionDecl type name) fun decl used => decl.SpeltBy (type :: name :: used) := by
  intro ts decl rest spelt run
  obtain ⟨paren, tail, params?, closing, after, inner, rfl, isParen, runParams, isClosing, runBody,
    rfl⟩ := functionDecl_ok.1 run
  obtain ⟨parenSpelt, tailSpelt⟩ := allSpelt_cons.1 spelt
  have opens := Token.lexeme_fixed parenSpelt isParen rfl
  have typeWord := Token.lexeme_word typeSpelt (.inr isType)
  have typeKind : type.kind = TokenKind.ofWord type.spelling := congrArg Lexeme.kind typeWord
  have nameWord := Token.lexeme_word nameSpelt (.inl callable)
  obtain ⟨paramUsed, rfl, paramsCanonical, paramSpell⟩ := paramList_reads tailSpelt runParams
  simp only [allSpelt_append, allSpelt_cons] at tailSpelt
  obtain ⟨-, closingSpelt, afterSpelt⟩ := tailSpelt
  have closes := Token.lexeme_fixed closingSpelt isClosing rfl
  obtain ⟨used, rfl, each, spell⟩ :=
    block_reads (stmtWithin_reads after.length) _ _ _ _ afterSpelt runBody
  refine ⟨paren :: (paramUsed ++ closing :: used), by simp, ⟨?_, ?_, paramsCanonical, each⟩, ?_⟩
  · rwa [TokenKind.spellsType, ← typeKind]
  · rcases Token.callable_cases nameSpelt callable with ⟨kind, own⟩ | ⟨kind, main⟩
    · exact .inl ⟨name.spelling, own, by simp [kind], by simp [kind]⟩
    · have spelling : name.spelling = "main" := (TokenKind.spells_fixed rfl).1 main
      exact .inr (by simp [kind, spelling])
  · have nameEq : FunctionDecl.name {
        returnType := type.spelling
        name? := if name.kind = .mainWord then none else some name.spelling
        entryName? := if name.kind = .mainWord then some name.spelling else none
        params?
        body := inner
        span := type.span ++ inner.span } = name.spelling := by
      by_cases reserved : name.kind = .mainWord <;> simp [FunctionDecl.name, reserved]
    rw [FunctionDecl.slots, nameEq]
    exact .cons typeWord (.cons nameWord (.cons opens (paramSpell.append (.cons closes spell))))

theorem startsFunction_eq_true {type name : Token} :
    startsFunction (type :: name :: ts) = true ↔
      type.kind.isType ∧ name.kind.isCallable ∧ ∃ t ∈ ts.head?, t.kind = .openParen := by
  cases ts with
  | nil => simp [startsFunction]
  | cons paren more => simp [startsFunction, and_assoc]

/-- What stands at the top level is a function, a declaration of a variable or a statement. -/
theorem topLevel_cases {node : TopLevel} (run : topLevel ts = .ok (node, rest)) :
    (∃ type name tail decl, ts = type :: name :: tail ∧ type.kind.isType ∧ name.kind.isCallable ∧
      functionDecl type name tail = .ok (decl, rest) ∧ node = .function decl) ∨
    (∃ decl, varDecl ts = .ok (decl, rest) ∧ node = .global decl) ∨
    ∃ s, statement ts = .ok (s, rest) ∧ node = .statement s ∧
      ∀ t ∈ ts.head?, t.kind.isType = false := by
  have global (run : (TopLevel.global <$> varDecl) ts = .ok (node, rest)) :
      ∃ decl, varDecl ts = .ok (decl, rest) ∧ node = .global decl := by
    obtain ⟨decl, runDecl, rfl⟩ := map_ok.1 run
    exact ⟨decl, runDecl, rfl⟩
  have other (run : (TopLevel.statement <$> statement) ts = .ok (node, rest)) :
      ∃ s, statement ts = .ok (s, rest) ∧ node = .statement s := by
    obtain ⟨s, runStmt, rfl⟩ := map_ok.1 run
    exact ⟨s, runStmt, rfl⟩
  match ts with
  | [] =>
    obtain ⟨s, runStmt, same⟩ := other run
    exact .inr (.inr ⟨s, runStmt, same, by simp⟩)
  | [t] =>
    simp only [topLevel] at run
    split at run
    next => exact .inr (.inl (global run))
    next noType =>
      obtain ⟨s, runStmt, same⟩ := other run
      exact .inr (.inr ⟨s, runStmt, same, by simpa using noType⟩)
  | type :: name :: tail =>
    simp only [topLevel] at run
    split at run
    next starts =>
      obtain ⟨isType, callable, -⟩ := startsFunction_eq_true.1 starts
      obtain ⟨decl, runDecl, rfl⟩ := map_ok.1 run
      exact .inl ⟨type, name, tail, decl, rfl, isType, callable, runDecl, rfl⟩
    next =>
      split at run
      next => exact .inr (.inl (global run))
      next noType =>
        obtain ⟨s, runStmt, same⟩ := other run
        exact .inr (.inr ⟨s, runStmt, same, by simpa using noType⟩)

/-- A statement that does not start with a type word declares no variable. -/
theorem statement_reads (noType : ∀ t ∈ ts.head?, t.kind.isType = false) {s : Stmt}
    (spelt : AllSpelt ts) (run : statement ts = .ok (s, rest)) :
    ∃ used, ts = used ++ rest ∧ s.isVar = false ∧ s.SpeltBy used := by
  obtain ⟨used, rfl, sound⟩ := stmtWithin_reads _ _ _ _ spelt run
  refine ⟨used, rfl, ?_, sound⟩
  obtain ⟨head, tail, rfl, -, isType⟩ := sound.starts
  rw [← isType, noType head rfl]

theorem topLevel_reads : Reads topLevel fun node used => node.SpeltBy used ∧ used ≠ [] := by
  intro ts node rest spelt run
  rcases topLevel_cases run with ⟨type, name, tail, decl, rfl, isType, callable, runDecl, rfl⟩ |
    ⟨decl, runDecl, rfl⟩ | ⟨s, runStmt, rfl, noType⟩
  · obtain ⟨typeSpelt, restSpelt⟩ := allSpelt_cons.1 spelt
    obtain ⟨nameSpelt, tailSpelt⟩ := allSpelt_cons.1 restSpelt
    obtain ⟨used, rfl, canonical, spell⟩ :=
      functionDecl_reads typeSpelt isType nameSpelt callable _ _ _ tailSpelt runDecl
    exact ⟨type :: name :: used, rfl, ⟨.function canonical, spell⟩, by simp⟩
  · obtain ⟨used, rfl, canonical, spell⟩ := varDecl_reads _ _ _ spelt runDecl
    obtain ⟨t, more, rfl, -⟩ := spell_lexeme.1 spell
    exact ⟨t :: more, rfl, ⟨.global canonical, spell⟩, by simp⟩
  · obtain ⟨used, same, noVar, sound⟩ := statement_reads noType spelt runStmt
    obtain ⟨head, more, rfl, -⟩ := sound.starts
    exact ⟨head :: more, same, ⟨.statement noVar sound.1, sound.2⟩, by simp⟩

/-- Declarations are read to the end of the input. -/
theorem declarations_reads {nodes : List TopLevel} (spelt : AllSpelt ts)
    (run : declarations ts = .ok (nodes, rest)) :
    rest = [] ∧ (∀ node ∈ nodes, node.Canonical) ∧
      Spell (between (nodes.map TopLevel.slots)) ts := by
  obtain ⟨used, rfl, each, spell, stopped⟩ := sequence_reads topLevel_reads spelt run
  cases rest with
  | nil => exact ⟨rfl, each, by simpa using spell⟩
  | cons t more => exact absurd (stopped (Nat.le_refl _) t rfl) (by simp)

end Grammar

/-! ## Programs -/

/-- The nodes of a program are read from the tokens before the first end token. -/
theorem Program.ofTokens_declarations {tokens : List Token} (spelt : ∀ t ∈ tokens, t.isSpelt)
    {p : Program} (read : Program.ofTokens tokens = .ok p) :
    Grammar.AllSpelt (tokens.takeWhile (!·.isEnd)) ∧
      ∃ rest, Grammar.declarations (tokens.takeWhile (!·.isEnd)) = .ok (p.declarations, rest) := by
  refine ⟨fun t member => spelt t (List.takeWhile_subset _ member), ?_⟩
  simp only [ofTokens, splitAtEnd] at read
  split at read
  case h_1 => cases read
  case h_2 nodes rest run =>
    cases read
    exact ⟨rest, run⟩

/-- A program that is read from tokens is canonical, and the tokens before the first end token
are spelt out of its slots: its lexemes in order, and semicolons at the boundaries between
statements. -/
theorem Program.canonical_of_ofTokens {tokens : List Token} (spelt : ∀ t ∈ tokens, t.isSpelt)
    {p : Program} (read : Program.ofTokens tokens = .ok p) :
    p.Canonical ∧ Spell p.slots (tokens.takeWhile (!·.isEnd)) := by
  obtain ⟨bodySpelt, rest, run⟩ := ofTokens_declarations spelt read
  exact (Grammar.declarations_reads bodySpelt run).2

/-- The tokens of `; int x = a - b; ;`, all at one place. -/
def Program.strayTokens : List Token :=
  [⟨.semicolon, ";", .origin⟩, ⟨.typeWord .int, "int", .origin⟩, ⟨.identifier, "x", .origin⟩,
    ⟨.assign, "=", .origin⟩, ⟨.identifier, "a", .origin⟩, ⟨.operator .sub, "-", .origin⟩,
    ⟨.identifier, "b", .origin⟩, ⟨.semicolon, ";", .origin⟩, ⟨.semicolon, ";", .origin⟩,
    ⟨.endOfInput, [], .origin⟩]

theorem Program.strayTokens_canonical : ∃ p, Program.ofTokens strayTokens = .ok p ∧
    p.Canonical ∧ Spell p.slots (strayTokens.takeWhile (!·.isEnd)) :=
  ⟨_, rfl, canonical_of_ofTokens (by decide) rfl⟩

end ProcCheck
