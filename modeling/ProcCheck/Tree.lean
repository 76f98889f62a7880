import ProcCheck.Token

/-!
# Syntax trees

Trees come from the parser or are built by hand. The second kind may spell a type in any way
and may hold nodes of unknown kind, which appear here as `foreign` with the tag that they
carry: an analysis meets them only when its walk reaches them. Every expression keeps the
excerpt of source that it was read from.
-/

namespace ProcCheck

/-- The operators in front of an operand. -/
inductive PrefixOp where
  | negate
  | not
  deriving DecidableEq, Repr

/-- How a prefix operator is written. -/
def PrefixOp.spelling : PrefixOp → Text
  | negate => "-"
  | not => "!"

/-- Expressions. -/
inductive Expr where
  | intLiteral (src : Excerpt) (value : Float)
  | floatLiteral (src : Excerpt) (value : Float)
  | stringLiteral (src : Excerpt) (value : Text)
  | identifier (src : Excerpt) (name : Text)
  | call (src : Excerpt) (callee : Text) (args : List Expr)
  | assign (src : Excerpt) (target : Text) (value : Expr)
  | binary (src : Excerpt) (op : BinaryOp) (left right : Expr)
  | prefixed (src : Excerpt) (op : PrefixOp) (operand : Expr)
  | group (src : Excerpt) (inner : Expr)
  | foreign (src : Excerpt) (tag : Text)

namespace Expr

/-- The excerpt that an expression was read from. -/
def src : Expr → Excerpt
  | intLiteral src _ | floatLiteral src _ | stringLiteral src _ | identifier src _
  | call src _ _ | assign src _ _ | binary src _ _ _ | prefixed src _ _ | group src _
  | foreign src _ => src

/-- The spellings of the tokens of an expression, joined. -/
def text (e : Expr) : Text := e.src.text

/-- Where an expression stands. -/
def span (e : Expr) : Span := e.src.span

/-- The line that an expression is reported at. -/
def line (e : Expr) : Int := e.span.line

end Expr

/-- Statements between braces. -/
structure Block (α : Type) where
  statements : List α
  span : Span

/-- A declaration of a variable. Whether it is a global or a local one depends on where it
stands. -/
structure VarDecl where
  type : Text
  name : Text
  init : Option Expr
  span : Span

/-- Statements. The first clause of a loop is a statement of its own. -/
inductive Stmt where
  | var (decl : VarDecl)
  | block (body : Block Stmt)
  | branch (condition : Expr) (thenBlock : Block Stmt) (elseBlock : Option (Block Stmt))
      (span : Span)
  | whileLoop (condition : Expr) (body : Block Stmt) (span : Span)
  | forLoop (init : Option Stmt) (condition update : Option Expr) (body : Block Stmt)
      (span : Span)
  | expr (e : Expr) (span : Span)
  | ret (value : Option Expr) (span : Span)
  | foreign (tag : Text) (span : Span)

namespace Stmt

/-- Where a statement stands. -/
def span : Stmt → Span
  | var decl => decl.span
  | block body => body.span
  | branch _ _ _ span | whileLoop _ _ span | forLoop _ _ _ _ span | expr _ span | ret _ span
  | foreign _ span => span

end Stmt

/-- A parameter of a function. -/
structure Param where
  type : Text
  name : Text
  span : Span
  deriving DecidableEq, Repr

/-- A declaration of a function. A function that is named by the reserved word has that word
as its `entryName`; the list of parameters is absent where the parentheses are empty. -/
structure FunctionDecl where
  returnType : Text
  name? : Option Text
  entryName? : Option Text
  params? : Option (List Param)
  body : Block Stmt
  span : Span

namespace FunctionDecl

/-- The name that a function is declared under. -/
def name (f : FunctionDecl) : Text := (f.entryName? <|> f.name?).getD []

/-- The parameters of a function. -/
def params (f : FunctionDecl) : List Param := f.params?.getD []

end FunctionDecl

/-- What stands at the top level of a program. -/
inductive TopLevel where
  | global (decl : VarDecl)
  | function (decl : FunctionDecl)
  | statement (s : Stmt)

/-- Where a top-level node stands. -/
def TopLevel.span : TopLevel → Span
  | global decl => decl.span
  | function decl => decl.span
  | statement s => s.span

/-- A whole program. -/
structure Program where
  declarations : List TopLevel
  span : Span

end ProcCheck
