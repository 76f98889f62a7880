import ProcCheck.Grammar.Statement
import ProcCheck.Token.Lexer

/-!
# Reading programs

A declaration that starts with a type word is a function if a name and an opening parenthesis
follow, and a global variable otherwise. Reading ends at the first end token, whatever comes
behind it.
-/

namespace ProcCheck

namespace Grammar

/-- A parameter: a type word and a name. -/
def param : Parse Param := do
  let type ← expectWhere TokenKind.isType .parameterType
  let name ← expect .identifier .parameterName
  return ⟨type.spelling, name.spelling, type.span ++ name.span⟩

/-- One or more parameters. -/
def params : Parse (List Param) := fun ts =>
  ((fun list => list.1 :: list.2.map (·.2)) <$> commaList param ts.length) ts

/-- A function from the parenthesis after its name on. -/
def functionDecl (type name : Token) : Parse FunctionDecl := do
  discard (expect .openParen .functionParen)
  let params? ← unlessNext .closeParen params
  discard (expect .closeParen .parametersEnd)
  if !(← nextIs (· = .openBrace)) then refuse .functionBody
  let body ← body
  let reserved : Bool := name.kind = .mainWord
  return {
    returnType := type.spelling
    name? := if reserved then none else some name.spelling
    entryName? := if reserved then some name.spelling else none
    params?
    body
    span := type.span ++ body.span }

/-- Whether a list of tokens starts like a function: a type word, a name, a parenthesis. -/
def startsFunction : List Token → Bool
  | type :: name :: paren :: _ =>
    type.kind.isType && name.kind.isCallable && paren.kind = .openParen
  | _ => false

/-- A declaration or a statement at the top level. -/
def topLevel : Parse TopLevel := fun ts =>
  match ts with
  | type :: name :: rest =>
    if startsFunction ts then (.function <$> functionDecl type name) rest
    else if type.kind.isType then (.global <$> varDecl) ts
    else (.statement <$> statement) ts
  | [type] => if type.kind.isType then (.global <$> varDecl) ts else (.statement <$> statement) ts
  | [] => (.statement <$> statement) []

/-- All declarations up to the end of the input. -/
def declarations : Parse (List TopLevel) := fun ts =>
  sequence topLevel (fun _ => false) ts.length ts

end Grammar

/-- The tokens before the first end token, and that token. -/
def splitAtEnd (tokens : List Token) : List Token × Token :=
  let body := tokens.takeWhile (!·.isEnd)
  (body, (tokens[body.length]?).getD ⟨.endOfInput, [], .origin⟩)

/-- The program that a list of tokens spells, up to its first end token. It spans all tokens
before that one, empty statements included. -/
def Program.ofTokens (tokens : List Token) : Except SyntaxError Program :=
  let (body, last) := splitAtEnd tokens
  match Grammar.declarations body with
  | .error refusal => .error (.unmet refusal.expected (refusal.rest.headD last))
  | .ok (declarations, _) =>
    .ok ⟨declarations, (body.headD last).span ++ (body.getLast?.getD last).span⟩

/-- The program that a source spells. -/
def Text.program (source : Text) : Except SyntaxError Program :=
  source.tokens.bind Program.ofTokens

end ProcCheck
