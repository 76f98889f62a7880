import ProcCheck.Grammar.Expression

/-!
# Reading statements

The first token tells what a statement is. Statements nest through blocks only, and a block
starts with a brace, so the bound on the tokens left goes down with each nesting.
-/

namespace ProcCheck.Grammar

/-- A declaration of a variable: a type word, a name and perhaps a value. -/
def varDecl : Parse VarDecl := do
  let type ← expectWhere TokenKind.isType .variableName
  let name ← expect .identifier .variableName
  let init ← if ← skip .assign then some <$> expression else pure none
  let last ← expect .semicolon .declarationEnd
  return ⟨type.spelling, name.spelling, init, type.span ++ last.span⟩

/-- An expression and its semicolon. -/
def exprStmt : Parse Stmt := do
  let e ← expression
  let last ← expect .semicolon .statementEnd
  return .expr e (e.span ++ last.span)

/-- A statement that leaves a function. -/
def returnStmt (first : Token) : Parse Stmt := do
  let value ← unlessNext .semicolon expression
  let last ← expect .semicolon .returnEnd
  return .ret value (first.span ++ last.span)

/-- Statements between braces. -/
def block (stmt : Parse Stmt) (bound : Nat) : Parse (Block Stmt) := do
  let first ← expect .openBrace .blockStart
  let statements ← sequence stmt (· = .closeBrace) bound
  let last ← expect .closeBrace .blockEnd
  return ⟨statements, first.span ++ last.span⟩

/-- A condition in parentheses. -/
def condition (opening : Expectation) : Parse Expr := do
  discard (expect .openParen opening)
  let e ← expression
  discard (expect .closeParen .conditionEnd)
  return e

/-- A branch with or without an alternative. -/
def ifStmt (body : Parse (Block Stmt)) (first : Token) : Parse Stmt := do
  let test ← condition .ifParen
  let thenBlock ← body
  if ← skip .elseWord then
    let elseBlock ← body
    return .branch test thenBlock (some elseBlock) (first.span ++ elseBlock.span)
  else return .branch test thenBlock none (first.span ++ thenBlock.span)

/-- A loop with a condition. -/
def whileStmt (body : Parse (Block Stmt)) (first : Token) : Parse Stmt := do
  let test ← condition .whileParen
  let inner ← body
  return .whileLoop test inner (first.span ++ inner.span)

/-- The first clause of a counting loop, with its semicolon. -/
def forInit : Parse (Option Stmt) := do
  if ← skip .semicolon then return none
  else if ← nextIs TokenKind.isType then return some (.var (← varDecl))
  else return some (← exprStmt)

/-- A loop with three clauses. -/
def forStmt (body : Parse (Block Stmt)) (first : Token) : Parse Stmt := do
  discard (expect .openParen .forParen)
  let init ← forInit
  let test ← unlessNext .semicolon expression
  discard (expect .semicolon .loopConditionEnd)
  let update ← unlessNext .closeParen expression
  discard (expect .closeParen .forClausesEnd)
  let inner ← body
  return .forLoop init test update inner (first.span ++ inner.span)

/-- A statement whose blocks are read with `body`. -/
def stmtWith (body : Parse (Block Stmt)) : Parse Stmt := fun ts =>
  match ts with
  | [] => exprStmt []
  | t :: rest =>
    match t.kind with
    | .typeWord _ => (.var <$> varDecl) ts
    | .ifWord => ifStmt body t rest
    | .whileWord => whileStmt body t rest
    | .forWord => forStmt body t rest
    | .returnWord => returnStmt t rest
    | .openBrace => (.block <$> body) ts
    | _ => exprStmt ts

/-- A statement of at most `bound` tokens. -/
def stmtWithin : Nat → Parse Stmt
  | 0 => exprStmt
  | bound + 1 => stmtWith (block (stmtWithin bound) bound)

/-- A statement. -/
def statement : Parse Stmt := fun ts => stmtWithin ts.length ts

/-- A block of statements. -/
def body : Parse (Block Stmt) := fun ts => block (stmtWithin ts.length) ts.length ts

end ProcCheck.Grammar
