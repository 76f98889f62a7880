import ProcCheck.Tree

/-!
# Walks over trees

`Expr.walk` lists the expressions under an expression, parents before their parts, and
`Stmt.walk` the expressions under a statement: those it owns first, then those of its blocks.
-/

namespace ProcCheck

namespace Expr

/-- The direct parts of an expression, in source order. -/
def children : Expr → List Expr
  | call _ _ args => args
  | assign _ _ value => [value]
  | binary _ _ left right => [left, right]
  | prefixed _ _ operand => [operand]
  | group _ inner => [inner]
  | _ => []

mutual

/-- An expression and all its parts, parents before their parts. -/
def walk : Expr → List Expr
  | e@(call _ _ args) => e :: walkAll args
  | e@(assign _ _ value) => e :: walk value
  | e@(binary _ _ left right) => e :: (walk left ++ walk right)
  | e@(prefixed _ _ operand) => e :: walk operand
  | e@(group _ inner) => e :: walk inner
  | e => [e]

/-- The walks of several expressions, one after the other. -/
def walkAll : List Expr → List Expr
  | [] => []
  | e :: rest => walk e ++ walkAll rest

end

end Expr

/-- What a call says about the function that it names. -/
structure CallSite where
  callee : Text
  argCount : Nat
  line : Int
  deriving DecidableEq, Repr

/-- The call that an expression is, if it is one. -/
def Expr.callSite? : Expr → Option CallSite
  | call src callee args => some ⟨callee, args.length, src.span.line⟩
  | _ => none

namespace Stmt

/-- The expressions that a statement owns, in source order; those of its blocks are not
among them. -/
def expressions : Stmt → List Expr
  | var decl => decl.init.toList
  | expr e _ => [e]
  | ret value _ => value.toList
  | branch condition _ _ _ => [condition]
  | whileLoop condition _ _ => [condition]
  | forLoop init condition update _ _ => first init ++ condition.toList ++ update.toList
  | block _ | foreign _ _ => []
where
  /-- The expressions of the first clause of a loop. -/
  first : Option Stmt → List Expr
    | none => []
    | some s => expressions s

/-- The blocks and statements directly under a statement, in source order. -/
def children : Stmt → List Stmt
  | block body => body.statements
  | branch _ thenBlock elseBlock _ => block thenBlock :: (elseBlock.map block).toList
  | whileLoop _ body _ | forLoop _ _ _ body _ => [block body]
  | var _ | expr _ _ | ret _ _ | foreign _ _ => []

/-- A statement and all statements under it, parents before their parts. -/
def nested : Stmt → List Stmt
  | s@(block body) => s :: nestedInBlock body
  | s@(branch _ thenBlock elseBlock _) =>
    s :: ((block thenBlock :: nestedInBlock thenBlock) ++ nestedInElse elseBlock)
  | s@(whileLoop _ body _) => s :: block body :: nestedInBlock body
  | s@(forLoop _ _ _ body _) => s :: block body :: nestedInBlock body
  | s => [s]
where
  /-- All statements inside a block. -/
  nestedInBlock : Block Stmt → List Stmt
    | ⟨statements, _⟩ => nestedInAll statements
  /-- The block of an alternative and all statements inside. -/
  nestedInElse : Option (Block Stmt) → List Stmt
    | none => []
    | some body => block body :: nestedInBlock body
  /-- All statements at and under those of a list. -/
  nestedInAll : List Stmt → List Stmt
    | [] => []
    | s :: rest => nested s ++ nestedInAll rest

/-- Every expression under a statement: first those it owns, each with its parts, then those
of the statements under it. -/
def walk (s : Stmt) : List Expr :=
  s.nested.flatMap fun inner => inner.expressions.flatMap Expr.walk

/-- The calls under a statement, in the order of the walk. -/
def calls (s : Stmt) : List CallSite := s.walk.filterMap Expr.callSite?

/-- Whether something under a statement calls `name`. -/
def callsTo (s : Stmt) (name : Text) : Bool := s.calls.any (·.callee = name)

end Stmt

end ProcCheck
