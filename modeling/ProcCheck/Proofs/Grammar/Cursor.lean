import ProcCheck.Proofs.Grammar.Levels

/-!
# Reading by place

The same grammar, read from a fixed list of tokens with a cursor into it. A reader looks at the
token under the cursor, at most two tokens further, and moves the cursor by one. Nothing keeps it
from looking outside the list, from going back behind the first token or from moving past an end
token: each of these stops the run with an outcome of its own, and so does a loop or a recursion
that goes on for more than the given rounds.
-/

namespace ProcCheck

/-- Why a run has no result. -/
inductive Cursor.Stop where
  /-- A syntax error. -/
  | refused (e : SyntaxError)
  /-- A token outside of the list was asked for. -/
  | outside
  /-- An end token was to be taken. -/
  | pastEnd
  /-- The rounds do not suffice. -/
  | unfinished
  deriving DecidableEq, Repr

/-- A reader with a cursor into a list of tokens. -/
abbrev Cursor := ReaderT (List Token) (StateT Nat (Except Cursor.Stop))

namespace Cursor

variable {α : Type}

/-! ## Steps -/

/-- Ends the run. -/
def stop (why : Stop) : Cursor α := fun _ _ => .error why

/-- The place of the cursor. -/
def place : Cursor Nat := fun _ c => .ok (c, c)

/-- The token at a place. -/
def tokenAt (i : Nat) : Cursor Token := fun tokens c =>
  match tokens[i]? with
  | some t => .ok (t, c)
  | none => .error .outside

/-- The token under the cursor. -/
def peek : Cursor Token := do tokenAt (← place)

/-- The token some places behind the cursor, or the last of the list if that is nearer. -/
def peekAt (offset : Nat) : Cursor Token := fun tokens c =>
  tokenAt (min (c + offset) (tokens.length - 1)) tokens c

/-- The token in front of the cursor. -/
def previous : Cursor Token := do
  match ← place with
  | 0 => stop .outside
  | c + 1 => tokenAt c

/-- Whether the cursor is at an end token. -/
def isAtEnd : Cursor Bool := return (← peek).isEnd

/-- Moves the cursor behind the next token. -/
def advance : Cursor Token := do
  if ← isAtEnd then stop .pastEnd
  modify (· + 1)
  previous

/-- Whether the next token is of a kind that `p` accepts. -/
def check (p : TokenKind → Bool) : Cursor Bool := do
  if ← isAtEnd then return false
  return p (← peek).kind

/-- Whether the token behind the next one is of the kind `kind`. -/
def isBehind (kind : TokenKind) : Cursor Bool := return (← peekAt 1).kind = kind

/-- Takes the next token if it is of the kind `kind`, and tells whether it did. -/
def accept (kind : TokenKind) : Cursor Bool := do
  if ← check (· = kind) then
    let _ ← advance
    return true
  return false

/-- Refuses a token. -/
def refuse (found : Token) (expected : Expectation) : Cursor α :=
  stop (.refused (.unmet expected found))

/-- Takes the next token, which must be of a kind that `p` accepts. -/
def consumeWhere (p : TokenKind → Bool) (expected : Expectation) : Cursor Token := do
  if ← check p then advance else refuse (← peek) expected

/-- Takes the next token, which must be of the kind `kind`. -/
def consume (kind : TokenKind) (expected : Expectation) : Cursor Token :=
  consumeWhere (· = kind) expected

/-- From the token at `start` to the one in front of the cursor, if there is one between them. -/
def spanFrom (start : Nat) : Cursor Span := do
  let first ← tokenAt start
  let c ← place
  let last ← (if start < c then previous else pure first : Cursor Token)
  return first.span ++ last.span

/-- The spellings of the tokens from `start` to the cursor. -/
def textFrom (start : Nat) : Cursor Text := fun tokens c =>
  .ok (((tokens.take c).drop start).flatMap (·.spelling), c)

/-- A node that stands from the place of the cursor to where `read` leaves it. -/
def located (read : Cursor (Span → α)) : Cursor α := do
  let start ← place
  let make ← read
  return make (← spanFrom start)

/-- As `located`, with the text of the node. -/
def excerpted (read : Cursor (Excerpt → α)) : Cursor α := do
  let start ← place
  let make ← read
  return make ⟨← textFrom start, ← spanFrom start⟩

/-- Reads with `read` unless the next token is of the kind `ending`. -/
def unlessNext (ending : TokenKind) (read : Cursor α) : Cursor (Option α) := do
  if ← check (· = ending) then return none else return some (← read)

/-- Reads with `read` behind a token of the kind `opening`, if there is one. -/
def ifNext (opening : TokenKind) (read : Cursor α) : Cursor (Option α) := do
  if ← accept opening then return some (← read) else return none

/-- One or more items with commas between them. -/
def commaList (item : Cursor α) : Nat → Cursor (List α)
  | 0 => stop .unfinished
  | rounds + 1 => do
    let first ← item
    if ← accept .comma then return first :: (← commaList item rounds) else return [first]

/-- Items as long as `goesOn` says so, and semicolons between them. -/
def sequence (goesOn : Cursor Bool) (item : Cursor α) : Nat → Cursor (List α)
  | 0 => stop .unfinished
  | rounds + 1 => do
    if !(← goesOn) then return []
    else if ← accept .semicolon then sequence goesOn item rounds
    else return (← item) :: (← sequence goesOn item rounds)

/-! ## Expressions -/

/-- Operators of a level and their operands after an expression that starts at `start`. -/
def levelLoop (start level : Nat) (operand : Cursor Expr) : Nat → Expr → Cursor Expr
  | 0, _ => stop .unfinished
  | rounds + 1, left => do
    match TokenKind.binaryOpOf? [level] (← peek).kind with
    | none => return left
    | some op =>
      let _ ← advance
      let right ← operand
      let src : Excerpt := ⟨← textFrom start, ← spanFrom start⟩
      levelLoop start level operand rounds (.binary src op left right)

/-- A chain of the operators of some levels, the loosest first. -/
def levels (operand : Cursor Expr) (rounds : Nat) : List Nat → Cursor Expr
  | [] => operand
  | level :: tighter => do
    let start ← place
    let left ← levels operand rounds tighter
    levelLoop start level (levels operand rounds tighter) rounds left

/-- An operand with its prefix operators. -/
def prefixed (primary : Cursor Expr) : Nat → Cursor Expr
  | 0 => stop .unfinished
  | rounds + 1 => do
    if ← check (·.prefixOp?.isSome) then
      excerpted do
        let sign ← advance
        let operand ← prefixed primary rounds
        return (.prefixed · (if sign.kind = .bang then .not else .negate) operand)
    else primary

/-- A call. -/
def call (inner : Cursor Expr) (rounds : Nat) : Cursor Expr := excerpted do
  let callee ← advance
  let _ ← advance
  let args ← unlessNext .closeParen (commaList inner rounds)
  let _ ← consume .closeParen .argumentsEnd
  return (.call · callee.spelling (args.getD []))

/-- An expression in parentheses. -/
def group (inner : Cursor Expr) : Cursor Expr := excerpted do
  let _ ← advance
  let e ← inner
  let _ ← consume .closeParen .groupEnd
  return (.group · e)

/-- A single token that is an operand. -/
def leaf (make : Excerpt → Expr) : Cursor Expr := do
  let start ← place
  let t ← advance
  return make ⟨t.spelling, ← spanFrom start⟩

/-- An operand without operators. -/
def primary (inner : Cursor Expr) (rounds : Nat) : Cursor Expr := do
  let t ← peek
  if ← pure t.kind.isCallable <&&> isBehind .openParen then call inner rounds
  else if ← check (· = .identifier) then leaf (.identifier · t.spelling)
  else if ← check (· = .intLiteral) then leaf (.intLiteral · t.spelling.toFloat)
  else if ← check (· = .floatLiteral) then leaf (.floatLiteral · t.spelling.toFloat)
  else if ← check (· = .stringLiteral) then leaf (.stringLiteral · (Grammar.unquoted t.spelling))
  else if ← check (· = .openParen) then group inner
  else refuse t .expression

/-- An expression: an assignment, or a chain of the operators of all levels. -/
def expression : Nat → Cursor Expr
  | 0 => stop .unfinished
  | rounds + 1 => do
    if ← check (· = .identifier) <&&> isBehind .assign then
      excerpted do
        let target ← advance
        let _ ← advance
        let value ← expression rounds
        return (.assign · target.spelling value)
    else
      levels (prefixed (primary (expression rounds) (rounds + 1)) (rounds + 1)) (rounds + 1)
        (List.range 6)

/-! ## Statements -/

variable (rounds : Nat)

/-- A declaration of a variable, at the top level or below. -/
def varDecl : Cursor VarDecl := located do
  let type ← advance
  let name ← consume .identifier .variableName
  let init ← ifNext .assign (expression rounds)
  let _ ← consume .semicolon .declarationEnd
  return (⟨type.spelling, name.spelling, init, ·⟩)

/-- An expression and its semicolon. -/
def exprStmt : Cursor Stmt := located do
  let e ← expression rounds
  let _ ← consume .semicolon .statementEnd
  return (.expr e ·)

/-- A statement that leaves a function. -/
def returnStmt : Cursor Stmt := located do
  let _ ← advance
  let value ← unlessNext .semicolon (expression rounds)
  let _ ← consume .semicolon .returnEnd
  return (.ret value ·)

/-- Statements between braces. -/
def block (stmt : Cursor Stmt) : Cursor (Block Stmt) := located do
  let _ ← consume .openBrace .blockStart
  let goesOn : Cursor Bool := do
    if ← check (· = .closeBrace) then return false else return !(← isAtEnd)
  let statements ← sequence goesOn stmt rounds
  let _ ← consume .closeBrace .blockEnd
  return (⟨statements, ·⟩)

/-- A condition in parentheses. -/
def condition (opening : Expectation) : Cursor Expr := do
  let _ ← consume .openParen opening
  let e ← expression rounds
  let _ ← consume .closeParen .conditionEnd
  return e

/-- A branch with or without an alternative. -/
def ifStmt (body : Cursor (Block Stmt)) : Cursor Stmt := located do
  let _ ← advance
  let test ← condition rounds .ifParen
  let thenBlock ← body
  let elseBlock ← ifNext .elseWord body
  return (.branch test thenBlock elseBlock ·)

/-- A loop with a condition. -/
def whileStmt (body : Cursor (Block Stmt)) : Cursor Stmt := located do
  let _ ← advance
  let test ← condition rounds .whileParen
  let inner ← body
  return (.whileLoop test inner ·)

/-- The first clause of a counting loop, with its semicolon. -/
def forInit : Cursor (Option Stmt) := do
  if ← accept .semicolon then return none
  else if ← check TokenKind.isType then return some (.var (← varDecl rounds))
  else return some (← exprStmt rounds)

/-- A loop with three clauses. -/
def forStmt (body : Cursor (Block Stmt)) : Cursor Stmt := located do
  let _ ← advance
  let _ ← consume .openParen .forParen
  let init ← forInit rounds
  let test ← unlessNext .semicolon (expression rounds)
  let _ ← consume .semicolon .loopConditionEnd
  let update ← unlessNext .closeParen (expression rounds)
  let _ ← consume .closeParen .forClausesEnd
  let inner ← body
  return (.forLoop init test update inner ·)

/-- A statement whose blocks are read with `body`. -/
def stmtWith (body : Cursor (Block Stmt)) : Cursor Stmt := do
  if ← check TokenKind.isType then return .var (← varDecl rounds)
  else if ← check (· = .ifWord) then ifStmt rounds body
  else if ← check (· = .whileWord) then whileStmt rounds body
  else if ← check (· = .forWord) then forStmt rounds body
  else if ← check (· = .returnWord) then returnStmt rounds
  else if ← check (· = .openBrace) then return .block (← body)
  else exprStmt rounds

/-- A statement. -/
def statement : Nat → Cursor Stmt
  | 0 => stop .unfinished
  | rounds + 1 => stmtWith (rounds + 1) (block (rounds + 1) (statement rounds))

/-! ## Declarations -/

/-- A parameter: a type word and a name. -/
def param : Cursor Param := located do
  let type ← consumeWhere TokenKind.isType .parameterType
  let name ← consume .identifier .parameterName
  return (⟨type.spelling, name.spelling, ·⟩)

/-- A function. -/
def functionDecl : Cursor FunctionDecl := located do
  let type ← advance
  let name ← advance
  let _ ← consume .openParen .functionParen
  let params? ← unlessNext .closeParen (commaList param rounds)
  let _ ← consume .closeParen .parametersEnd
  if !(← check (· = .openBrace)) then refuse (← peek) .functionBody
  let body ← block rounds (statement rounds)
  let reserved : Bool := name.kind = .mainWord
  return fun span => {
    returnType := type.spelling
    name? := if reserved then none else some name.spelling
    entryName? := if reserved then some name.spelling else none
    params?
    body
    span }

/-- A declaration or a statement at the top level. -/
def topLevel : Cursor TopLevel := do
  if ← check TokenKind.isType then
    let name ← peekAt 1
    let behind ← peekAt 2
    if name.kind.isCallable && behind.kind = .openParen then
      return .function (← functionDecl rounds)
    else return .global (← varDecl rounds)
  else return .statement (← statement rounds)

/-- All declarations up to the first end token. -/
def program : Cursor Program := do
  let declarations ← sequence (return !(← isAtEnd)) (topLevel rounds) rounds
  return ⟨declarations, ← spanFrom 0⟩

/-- The outcome of reading a whole list of tokens, from its first one on. -/
def parse (tokens : List Token) : Except Stop Program := Prod.fst <$> program rounds tokens 0

end Cursor

end ProcCheck
