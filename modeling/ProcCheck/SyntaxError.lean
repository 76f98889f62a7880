import ProcCheck.Token

/-!
# Syntax errors

A source is refused at the first place where it goes wrong. `Fault` is the cause, with its
wording in `Fault.message`; a `SyntaxError` is a fault and its location.
-/

namespace ProcCheck

/-- What the grammar asked for where another token stood. -/
inductive Expectation where
  | variableName
  | declarationEnd
  | functionParen
  | parametersEnd
  | functionBody
  | parameterType
  | parameterName
  | blockStart
  | blockEnd
  | ifParen
  | whileParen
  | forParen
  | conditionEnd
  | loopConditionEnd
  | forClausesEnd
  | returnEnd
  | statementEnd
  | expression
  | groupEnd
  | argumentsEnd
  deriving DecidableEq, Repr

/-- The wording of an unmet expectation, given the token that was found. -/
def Expectation.message (found : Token) : Expectation → Text
  | variableName => "Expected variable name."
  | declarationEnd => "Expected ';' after declaration."
  | functionParen => "Expected '(' after function name."
  | parametersEnd => "Expected ')' after parameters."
  | functionBody => "Expected '\x7b' for function body."
  | parameterType => "Expected parameter type."
  | parameterName => "Expected parameter name."
  | blockStart => "Expected '\x7b'."
  | blockEnd => "Expected '\x7d' after block."
  | ifParen => "Expected '(' after 'if'."
  | whileParen => "Expected '(' after 'while'."
  | forParen => "Expected '(' after 'for'."
  | conditionEnd => "Expected ')' after condition."
  | loopConditionEnd => "Expected ';' after loop condition."
  | forClausesEnd => "Expected ')' after for clauses."
  | returnEnd => "Expected ';' after return."
  | statementEnd => "Expected ';' after expression."
  | expression =>
    if found.isEnd then "Expected expression. Found end of input"
    else "Expected expression. Found '" ++ found.spelling ++ "'"
  | groupEnd => "Expected ')' after expression."
  | argumentsEnd => "Expected ')' after arguments."

/-- Why a source is refused. -/
inductive Fault where
  | unexpectedUnit (unit : CodeUnit)
  | unterminatedString
  | unterminatedComment
  | unmet (expected : Expectation) (found : Token)
  deriving DecidableEq, Repr

/-- The wording of a fault. -/
def Fault.message : Fault → Text
  | unexpectedUnit unit => "Unexpected character '" ++ [unit] ++ "'"
  | unterminatedString => "Unterminated string"
  | unterminatedComment => "Unterminated block comment"
  | unmet expected found => expected.message found

/-- A fault and where it stands. -/
structure SyntaxError where
  fault : Fault
  location : Location
  deriving DecidableEq, Repr

namespace SyntaxError

/-- The wording of a syntax error, without its place. -/
def message (e : SyntaxError) : Text := e.fault.message

/-- An unmet expectation covers the token found instead, at least one column. -/
def unmet (expected : Expectation) (found : Token) : SyntaxError :=
  ⟨.unmet expected found, ⟨found.pos.line, found.pos.col, some (max 1 found.spelling.length)⟩⟩

end SyntaxError

end ProcCheck
