import ProcCheck.Grammar.Parse
import ProcCheck.Number.Decimal

/-!
# Reading expressions

An expression is an assignment or a chain: operands with binary operators between them. The
chain is read from left to right, and `Expr.attach` hangs each operator and its right operand
into the tree built so far, where its level puts it.
-/

namespace ProcCheck

/-- The operator between two operands that a kind of token stands for. -/
def TokenKind.binaryOp? : TokenKind → Option BinaryOp
  | operator op => some op
  | _ => none

/-- The operator in front of an operand that a kind of token stands for. -/
def TokenKind.prefixOp? : TokenKind → Option PrefixOp
  | operator .sub => some .negate
  | bang => some .not
  | _ => none

/-- The tree of `left op right`, where `left` is the tree of all that stands before the
operator. If the last operator of `left` binds less tightly than `op`, its right operand is
what `op` takes; operators of one level group to the left. -/
def Expr.attach (left : Expr) (op : BinaryOp) (sign : Excerpt) (right : Expr) : Expr :=
  match left with
  | .binary src outer l r =>
    if outer.level < op.level then
      .binary (src ++ sign ++ right.src) outer l (r.attach op sign right)
    else .binary (src ++ sign ++ right.src) op (.binary src outer l r) right
  | left => .binary (left.src ++ sign ++ right.src) op left right

namespace Grammar

/-- Operators and their operands after the expression `left`. -/
def operators (operand : Parse Expr) : Nat → Expr → Parse Expr
  | 0, left => return left
  | bound + 1, left => do
    match ← take? TokenKind.binaryOp? with
    | none => return left
    | some (op, sign) =>
      let right ← operand
      operators operand bound (left.attach op sign.excerpt right)

/-- An operand with its prefix operators. -/
def prefixed (primary : Parse Expr) : Nat → Parse Expr
  | 0 => primary
  | bound + 1 => do
    match ← take? TokenKind.prefixOp? with
    | none => primary
    | some (op, sign) =>
      let operand ← prefixed primary bound
      return .prefixed (sign.excerpt ++ operand.src) op operand

/-- A call: the name, then the arguments in parentheses. -/
def call (inner : Parse Expr) (bound : Nat) (callee opening : Token) : Parse Expr := do
  let args ← unlessNext .closeParen (commaList inner bound)
  let closing ← expect .closeParen .argumentsEnd
  let start := callee.excerpt ++ opening.excerpt
  match args with
  | none => return .call (start ++ closing.excerpt) callee.spelling []
  | some (first, more) =>
    let src := more.foldl (fun src next => src ++ next.1.excerpt ++ next.2.src) (start ++ first.src)
    return .call (src ++ closing.excerpt) callee.spelling (first :: more.map (·.2))

/-- An expression in parentheses. -/
def group (inner : Parse Expr) (opening : Token) : Parse Expr := do
  let e ← inner
  let closing ← expect .closeParen .groupEnd
  return .group (opening.excerpt ++ e.src ++ closing.excerpt) e

/-- The text between the first and the last unit of a spelling. -/
def unquoted (spelling : Text) : Text := (spelling.drop 1).dropLast

/-- An operand without operators: a call, a name, a literal or a group. -/
def primary (inner : Parse Expr) (bound : Nat) : Parse Expr := fun ts =>
  match ts with
  | [] => refuse .expression []
  | t :: rest =>
    match rest with
    | paren :: rest' =>
      if t.kind.isCallable ∧ paren.kind = .openParen then call inner bound t paren rest'
      else simple t rest
    | [] => simple t []
where
  simple (t : Token) : Parse Expr := fun rest =>
    match t.kind with
    | .identifier => .ok (.identifier t.excerpt t.spelling, rest)
    | .intLiteral => .ok (.intLiteral t.excerpt t.spelling.toFloat, rest)
    | .floatLiteral => .ok (.floatLiteral t.excerpt t.spelling.toFloat, rest)
    | .stringLiteral => .ok (.stringLiteral t.excerpt (unquoted t.spelling), rest)
    | .openParen => group inner t rest
    | _ => refuse .expression (t :: rest)

/-- The target and the sign of an assignment, if one starts here. -/
def assignmentStart? : Parse (Option (Token × Token)) := fun ts =>
  match ts with
  | target :: sign :: rest =>
    if target.kind = .identifier ∧ sign.kind = .assign then .ok (some (target, sign), rest)
    else .ok (none, ts)
  | _ => .ok (none, ts)

/-- An expression of at most `bound` tokens. -/
def expressionWithin : Nat → Parse Expr
  | 0 => refuse .expression
  | bound + 1 => do
    match ← assignmentStart? with
    | some (target, sign) =>
      let value ← expressionWithin bound
      return .assign (target.excerpt ++ sign.excerpt ++ value.src) target.spelling value
    | none =>
      let operand := prefixed (primary (expressionWithin bound) (bound + 1)) (bound + 1)
      operators operand (bound + 1) (← operand)

/-- An expression. -/
def expression : Parse Expr := fun ts => expressionWithin ts.length ts

end Grammar

end ProcCheck
