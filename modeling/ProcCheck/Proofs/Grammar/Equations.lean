import ProcCheck.Proofs.Grammar.Read

/-!
# When the readers of statements and declarations succeed

One equation for each reader of a clause: what stands in front, which readers ran on which
tokens, and what came out. Soundness reads the equations from left to right, completeness from
right to left.
-/

namespace ProcCheck.Grammar

variable {ts rest : List Token}

/-! ## Statements -/

/-- The value of a declaration is behind a sign, and there is none without one. -/
def Initializes (ts : List Token) (init : Option Expr) (rest : List Token) : Prop :=
  (∃ sign tail e, ts = sign :: tail ∧ sign.kind = .assign ∧ init = some e ∧
    expression tail = .ok (e, rest)) ∨
  init = none ∧ rest = ts ∧ ∀ t ∈ ts.head?, t.kind ≠ .assign

theorem varDecl_ok {decl : VarDecl} : varDecl ts = .ok (decl, rest) ↔
    ∃ type name tail init last, ts = type :: name :: tail ∧ type.kind.isType ∧
      name.kind = .identifier ∧ Initializes tail init (last :: rest) ∧ last.kind = .semicolon ∧
      decl = ⟨type.spelling, name.spelling, init, type.span ++ last.span⟩ := by
  simp only [varDecl, bind_ok, expectWhere_ok, expect_ok, skip_ok]
  constructor
  · rintro ⟨type, _, ⟨rfl, isType⟩, name, tail, ⟨rfl, isName⟩, given, mid, skipped, run⟩
    rcases skipped with ⟨rfl, sign, rfl, isSign⟩ | ⟨rfl, rfl, noSign⟩
    · simp only [if_true, bind_ok, map_ok, expect_ok, pure_ok] at run
      obtain ⟨_, _, ⟨e, runExpr, rfl⟩, last, _, ⟨rfl, isLast⟩, rfl, rfl⟩ := run
      exact ⟨type, name, _, _, last, rfl, isType, isName,
        .inl ⟨sign, mid, e, rfl, isSign, rfl, runExpr⟩, isLast, rfl⟩
    · simp only [Bool.false_eq_true, if_false, bind_ok, expect_ok, pure_ok] at run
      obtain ⟨_, _, ⟨rfl, rfl⟩, last, _, ⟨rfl, isLast⟩, rfl, rfl⟩ := run
      exact ⟨type, name, _, _, last, rfl, isType, isName, .inr ⟨rfl, rfl, noSign⟩, isLast, rfl⟩
  · rintro ⟨type, name, tail, init, last, rfl, isType, isName, initializes, isLast, rfl⟩
    refine ⟨type, _, ⟨rfl, isType⟩, name, tail, ⟨rfl, isName⟩, ?_⟩
    rcases initializes with ⟨sign, tail, e, rfl, isSign, rfl, runExpr⟩ | ⟨rfl, rfl, noSign⟩
    · refine ⟨true, tail, .inl ⟨rfl, sign, rfl, isSign⟩, ?_⟩
      simp only [if_true, bind_ok, map_ok, expect_ok, pure_ok]
      exact ⟨_, _, ⟨e, runExpr, rfl⟩, last, _, ⟨rfl, isLast⟩, rfl, rfl⟩
    · refine ⟨false, _, .inr ⟨rfl, rfl, noSign⟩, ?_⟩
      simp only [Bool.false_eq_true, if_false, bind_ok, expect_ok, pure_ok]
      exact ⟨_, _, ⟨rfl, rfl⟩, last, _, ⟨rfl, isLast⟩, rfl, rfl⟩

theorem exprStmt_ok {s : Stmt} : exprStmt ts = .ok (s, rest) ↔
    ∃ e last, expression ts = .ok (e, last :: rest) ∧ last.kind = .semicolon ∧
      s = .expr e (e.span ++ last.span) := by
  simp only [exprStmt, bind_ok, expect_ok, pure_ok]
  constructor
  · rintro ⟨e, _, runExpr, last, _, ⟨rfl, isLast⟩, rfl, rfl⟩
    exact ⟨e, last, runExpr, isLast, rfl⟩
  · rintro ⟨e, last, runExpr, isLast, rfl⟩
    exact ⟨e, _, runExpr, last, _, ⟨rfl, isLast⟩, rfl, rfl⟩

theorem returnStmt_ok {first : Token} {s : Stmt} : returnStmt first ts = .ok (s, rest) ↔
    ∃ value last, unlessNext .semicolon expression ts = .ok (value, last :: rest) ∧
      last.kind = .semicolon ∧ s = .ret value (first.span ++ last.span) := by
  simp only [returnStmt, bind_ok, expect_ok, pure_ok]
  constructor
  · rintro ⟨value, _, runValue, last, _, ⟨rfl, isLast⟩, rfl, rfl⟩
    exact ⟨value, last, runValue, isLast, rfl⟩
  · rintro ⟨value, last, runValue, isLast, rfl⟩
    exact ⟨value, _, runValue, last, _, ⟨rfl, isLast⟩, rfl, rfl⟩

theorem block_ok {stmt : Parse Stmt} {bound : Nat} {b : Block Stmt} :
    block stmt bound ts = .ok (b, rest) ↔
      ∃ opening tail statements closing, ts = opening :: tail ∧ opening.kind = .openBrace ∧
        sequence stmt (· = .closeBrace) bound tail = .ok (statements, closing :: rest) ∧
        closing.kind = .closeBrace ∧ b = ⟨statements, opening.span ++ closing.span⟩ := by
  simp only [block, bind_ok, expect_ok, pure_ok]
  constructor
  · rintro ⟨opening, tail, ⟨rfl, opens⟩, statements, _, runAll, closing, _, ⟨rfl, closes⟩, rfl, rfl⟩
    exact ⟨opening, tail, statements, closing, rfl, opens, runAll, closes, rfl⟩
  · rintro ⟨opening, tail, statements, closing, rfl, opens, runAll, closes, rfl⟩
    exact ⟨opening, tail, ⟨rfl, opens⟩, statements, _, runAll, closing, _, ⟨rfl, closes⟩, rfl, rfl⟩

theorem condition_ok {opening : Expectation} {e : Expr} : condition opening ts = .ok (e, rest) ↔
    ∃ paren tail closing, ts = paren :: tail ∧ paren.kind = .openParen ∧
      expression tail = .ok (e, closing :: rest) ∧ closing.kind = .closeParen := by
  simp only [condition, bind_ok, discard_ok, expect_ok, pure_ok]
  constructor
  · rintro ⟨_, tail, ⟨paren, rfl, opens⟩, _, _, runExpr, _, _, ⟨closing, rfl, closes⟩, rfl, rfl⟩
    exact ⟨paren, tail, closing, rfl, opens, runExpr, closes⟩
  · rintro ⟨paren, tail, closing, rfl, opens, runExpr, closes⟩
    exact ⟨(), tail, ⟨paren, rfl, opens⟩, e, _, runExpr, (), _, ⟨closing, rfl, closes⟩, rfl, rfl⟩

/-- The alternative of a branch is behind its word, and there is none without one. -/
def Alternates (body : Parse (Block Stmt)) (ts : List Token) (elseBlock : Option (Block Stmt))
    (rest : List Token) : Prop :=
  (∃ word tail b, ts = word :: tail ∧ word.kind = .elseWord ∧ elseBlock = some b ∧
    body tail = .ok (b, rest)) ∨
  elseBlock = none ∧ rest = ts ∧ ∀ t ∈ ts.head?, t.kind ≠ .elseWord

theorem ifStmt_ok {body : Parse (Block Stmt)} {first : Token} {s : Stmt} :
    ifStmt body first ts = .ok (s, rest) ↔
      ∃ test mid thenBlock after elseBlock, condition .ifParen ts = .ok (test, mid) ∧
        body mid = .ok (thenBlock, after) ∧ Alternates body after elseBlock rest ∧
        s = .branch test thenBlock elseBlock
          (first.span ++ (elseBlock.elim thenBlock.span Block.span)) := by
  simp only [ifStmt, bind_ok, skip_ok]
  constructor
  · rintro ⟨test, mid, runTest, thenBlock, after, runThen, given, tail, skipped, run⟩
    rcases skipped with ⟨rfl, word, rfl, isElse⟩ | ⟨rfl, rfl, noElse⟩
    · simp only [if_true, bind_ok, pure_ok] at run
      obtain ⟨elseBlock, _, runElse, rfl, rfl⟩ := run
      exact ⟨test, mid, thenBlock, _, some elseBlock, runTest, runThen,
        .inl ⟨word, tail, elseBlock, rfl, isElse, rfl, runElse⟩, rfl⟩
    · simp only [Bool.false_eq_true, if_false, pure_ok] at run
      obtain ⟨rfl, rfl⟩ := run
      exact ⟨test, mid, thenBlock, _, none, runTest, runThen, .inr ⟨rfl, rfl, noElse⟩, rfl⟩
  · rintro ⟨test, mid, thenBlock, after, elseBlock, runTest, runThen, alternates, rfl⟩
    refine ⟨test, mid, runTest, thenBlock, after, runThen, ?_⟩
    rcases alternates with ⟨word, tail, b, rfl, isElse, rfl, runElse⟩ | ⟨rfl, rfl, noElse⟩
    · refine ⟨true, tail, .inl ⟨rfl, word, rfl, isElse⟩, ?_⟩
      simp only [if_true, bind_ok, pure_ok]
      exact ⟨b, rest, runElse, rfl, rfl⟩
    · exact ⟨false, _, .inr ⟨rfl, rfl, noElse⟩, pure_ok.2 ⟨rfl, rfl⟩⟩

theorem whileStmt_ok {body : Parse (Block Stmt)} {first : Token} {s : Stmt} :
    whileStmt body first ts = .ok (s, rest) ↔
      ∃ test mid inner, condition .whileParen ts = .ok (test, mid) ∧
        body mid = .ok (inner, rest) ∧ s = .whileLoop test inner (first.span ++ inner.span) := by
  simp only [whileStmt, bind_ok, pure_ok]
  constructor
  · rintro ⟨test, mid, runTest, inner, _, runBody, rfl, rfl⟩
    exact ⟨test, mid, inner, runTest, runBody, rfl⟩
  · rintro ⟨test, mid, inner, runTest, runBody, rfl⟩
    exact ⟨test, mid, runTest, inner, _, runBody, rfl, rfl⟩

theorem forInit_ok {init : Option Stmt} : forInit ts = .ok (init, rest) ↔
    (init = none ∧ ∃ t, ts = t :: rest ∧ t.kind = .semicolon) ∨
    (∃ decl, init = some (.var decl) ∧ varDecl ts = .ok (decl, rest)) ∨
    ∃ s, init = some s ∧ exprStmt ts = .ok (s, rest) ∧
      ∀ t ∈ ts.head?, t.kind ≠ .semicolon ∧ t.kind.isType = false := by
  simp only [forInit, bind_ok, skip_ok]
  constructor
  · rintro ⟨empty, mid, ⟨rfl, t, rfl, isSemicolon⟩ | ⟨rfl, rfl, other⟩, run⟩
    · simp only [if_true, pure_ok] at run
      obtain ⟨rfl, rfl⟩ := run
      exact .inl ⟨rfl, t, rfl, isSemicolon⟩
    · simp only [Bool.false_eq_true, if_false, bind_ok, nextIs_ok] at run
      obtain ⟨type, _, ⟨isType, rfl⟩, run⟩ := run
      cases type with
      | true =>
        simp only [if_true, bind_ok, pure_ok] at run
        obtain ⟨decl, _, runDecl, rfl, rfl⟩ := run
        exact .inr (.inl ⟨decl, rfl, runDecl⟩)
      | false =>
        simp only [Bool.false_eq_true, if_false, bind_ok, pure_ok] at run
        obtain ⟨s, _, runStmt, rfl, rfl⟩ := run
        refine .inr (.inr ⟨s, rfl, runStmt, fun t member => ⟨other t member, ?_⟩⟩)
        rw [Option.mem_def] at member
        simpa [member] using isType.symm
  · rintro (⟨rfl, t, rfl, isSemicolon⟩ | ⟨decl, rfl, runDecl⟩ | ⟨s, rfl, runStmt, noType⟩)
    · exact ⟨true, rest, .inl ⟨rfl, t, rfl, isSemicolon⟩, pure_ok.2 ⟨rfl, rfl⟩⟩
    · obtain ⟨type, name, tail, _, _, rfl, isType, -⟩ := varDecl_ok.1 runDecl
      have other : type.kind ≠ .semicolon := by
        intro same
        simp [same, TokenKind.isType] at isType
      refine ⟨false, _, .inr ⟨rfl, rfl, by simpa using other⟩, ?_⟩
      refine bind_ok.2 ⟨true, _, nextIs_ok.2 ⟨by simp [isType], rfl⟩, ?_⟩
      exact bind_ok.2 ⟨decl, rest, runDecl, pure_ok.2 ⟨rfl, rfl⟩⟩
    · refine ⟨false, ts, .inr ⟨rfl, rfl, fun t h => (noType t h).1⟩, ?_⟩
      have here : nextIs TokenKind.isType ts = .ok (false, ts) := by
        refine nextIs_ok.2 ⟨?_, rfl⟩
        cases ts with
        | nil => rfl
        | cons t tail => simpa using (noType t rfl).2.symm
      refine bind_ok.2 ⟨false, ts, here, ?_⟩
      exact bind_ok.2 ⟨s, rest, runStmt, pure_ok.2 ⟨rfl, rfl⟩⟩

theorem forStmt_ok {body : Parse (Block Stmt)} {first : Token} {s : Stmt} :
    forStmt body first ts = .ok (s, rest) ↔
      ∃ paren tail init afterInit test semicolon afterTest update closing afterUpdate inner,
        ts = paren :: tail ∧ paren.kind = .openParen ∧ forInit tail = .ok (init, afterInit) ∧
        unlessNext .semicolon expression afterInit = .ok (test, semicolon :: afterTest) ∧
        semicolon.kind = .semicolon ∧
        unlessNext .closeParen expression afterTest = .ok (update, closing :: afterUpdate) ∧
        closing.kind = .closeParen ∧ body afterUpdate = .ok (inner, rest) ∧
        s = .forLoop init test update inner (first.span ++ inner.span) := by
  simp only [forStmt, bind_ok, discard_ok, expect_ok, pure_ok]
  constructor
  · rintro ⟨_, tail, ⟨paren, rfl, opens⟩, init, afterInit, runInit, test, _, runTest, _, _,
      ⟨semicolon, rfl, isSemicolon⟩, update, _, runUpdate, _, _, ⟨closing, rfl, closes⟩, inner, _,
      runBody, rfl, rfl⟩
    exact ⟨paren, tail, init, afterInit, test, semicolon, _, update, closing, _, inner, rfl, opens,
      runInit, runTest, isSemicolon, runUpdate, closes, runBody, rfl⟩
  · rintro ⟨paren, tail, init, afterInit, test, semicolon, _, update, closing, _, inner, rfl, opens,
      runInit, runTest, isSemicolon, runUpdate, closes, runBody, rfl⟩
    exact ⟨(), tail, ⟨paren, rfl, opens⟩, init, afterInit, runInit, test, _, runTest, (), _,
      ⟨semicolon, rfl, isSemicolon⟩, update, _, runUpdate, (), _, ⟨closing, rfl, closes⟩, inner, _,
      runBody, rfl, rfl⟩

/-! ## Declarations -/

theorem param_ok {p : Param} : param ts = .ok (p, rest) ↔
    ∃ type name, ts = type :: name :: rest ∧ type.kind.isType ∧ name.kind = .identifier ∧
      p = ⟨type.spelling, name.spelling, type.span ++ name.span⟩ := by
  simp only [param, bind_ok, expectWhere_ok, expect_ok, pure_ok]
  constructor
  · rintro ⟨type, _, ⟨rfl, isType⟩, name, _, ⟨rfl, isName⟩, rfl, rfl⟩
    exact ⟨type, name, rfl, isType, isName, rfl⟩
  · rintro ⟨type, name, rfl, isType, isName, rfl⟩
    exact ⟨type, _, ⟨rfl, isType⟩, name, _, ⟨rfl, isName⟩, rfl, rfl⟩

theorem functionDecl_ok {type name : Token} {decl : FunctionDecl} :
    functionDecl type name ts = .ok (decl, rest) ↔
      ∃ paren tail params? closing after inner, ts = paren :: tail ∧ paren.kind = .openParen ∧
        unlessNext .closeParen params tail = .ok (params?, closing :: after) ∧
        closing.kind = .closeParen ∧ body after = .ok (inner, rest) ∧
        decl = {
          returnType := type.spelling
          name? := if name.kind = .mainWord then none else some name.spelling
          entryName? := if name.kind = .mainWord then some name.spelling else none
          params?
          body := inner
          span := type.span ++ inner.span } := by
  simp only [functionDecl, bind_ok, discard_ok, expect_ok, nextIs_ok]
  constructor
  · rintro ⟨_, tail, ⟨paren, rfl, opens⟩, params?, _, runParams, _, after, ⟨closing, rfl, closes⟩,
      braced, _, ⟨-, rfl⟩, run⟩
    cases braced with
    | true =>
      obtain ⟨inner, _, runBody, same⟩ := bind_ok.1 run
      obtain ⟨rfl, rfl⟩ := pure_ok.1 same
      exact ⟨paren, tail, params?, closing, _, inner, rfl, opens, runParams, closes, runBody,
        by simp⟩
    | false =>
      obtain ⟨_, _, refused, -⟩ := bind_ok.1 run
      exact absurd refused refuse_ok
  · rintro ⟨paren, tail, params?, closing, after, inner, rfl, opens, runParams, closes, runBody, rfl⟩
    obtain ⟨brace, _, _, _, rfl, isBrace, -⟩ := block_ok.1 runBody
    refine ⟨(), tail, ⟨paren, rfl, opens⟩, params?, _, runParams, (), _, ⟨closing, rfl, closes⟩, ?_⟩
    refine ⟨true, _, ⟨by simp [isBrace], rfl⟩, ?_⟩
    exact bind_ok.2 ⟨inner, rest, runBody, pure_ok.2 ⟨by simp, rfl⟩⟩

end ProcCheck.Grammar
