import Mathlib.Data.List.Basic
import ProcCheck.Proofs.Tree.Place
import ProcCheck.Proofs.Tree.Recast

/-!
# Moving the lines of a tree

`moved lines` takes a tree, or a token, to where it stands when line `l` begins at `lines l`
instead of at the left margin. Everything but places is left as it is, so a tree and its image are
equal without their places. The image is the tree recast with its own names, by `Recast.moved`.
-/

namespace ProcCheck

variable {lines : Int → Position}

/-! ## Places -/

/-- The place that is moved along with its line. -/
def Position.moved (lines : Int → Position) (p : Position) : Position :=
  ⟨(lines p.line).line, (lines p.line).col + p.col⟩

/-- A span that is moved along with its lines. -/
def Span.moved (lines : Int → Position) (s : Span) : Span :=
  ⟨s.start.moved lines, s.stop.moved lines⟩

/-- An excerpt that is moved along with its lines. -/
def Excerpt.moved (lines : Int → Position) (src : Excerpt) : Excerpt :=
  ⟨src.text, src.span.moved lines⟩

@[simp] theorem Excerpt.moved_append (a b : Excerpt) :
    (a ++ b).moved lines = a.moved lines ++ b.moved lines := rfl

@[simp] theorem Excerpt.unplaced_moved (src : Excerpt) :
    (src.moved lines).unplaced = src.unplaced := rfl

namespace Token

/-- A token that is moved along with its line. -/
def moved (lines : Int → Position) (t : Token) : Token := { t with pos := t.pos.moved lines }

@[simp] theorem kind_moved (t : Token) : (t.moved lines).kind = t.kind := rfl

@[simp] theorem spelling_moved (t : Token) : (t.moved lines).spelling = t.spelling := rfl

@[simp] theorem span_moved (t : Token) : (t.moved lines).span = t.span.moved lines := by
  simp [span, stop, moved, Span.moved, Position.moved, Int.add_assoc]

@[simp] theorem excerpt_moved (t : Token) : (t.moved lines).excerpt = t.excerpt.moved lines := by
  simp [excerpt, Excerpt.moved]

end Token

/-- The recasting that moves a tree along with its lines. -/
def Recast.moved (lines : Int → Position) : Recast where
  name := id
  place := Position.moved lines
  behind _ := Position.moved lines
  src e := e.src.moved lines

/-! ## Expressions -/

/-- An expression that is moved along with its lines. -/
def Expr.moved (lines : Int → Position) : Expr → Expr
  | intLiteral src value => .intLiteral (src.moved lines) value
  | floatLiteral src value => .floatLiteral (src.moved lines) value
  | stringLiteral src value => .stringLiteral (src.moved lines) value
  | identifier src name => .identifier (src.moved lines) name
  | call src callee args => .call (src.moved lines) callee (movedAll args)
  | assign src target value => .assign (src.moved lines) target (value.moved lines)
  | binary src op left right =>
    .binary (src.moved lines) op (left.moved lines) (right.moved lines)
  | prefixed src op operand => .prefixed (src.moved lines) op (operand.moved lines)
  | group src inner => .group (src.moved lines) (inner.moved lines)
  | foreign src tag => .foreign (src.moved lines) tag
where
  /-- Several expressions that are moved along with their lines. -/
  movedAll : List Expr → List Expr
    | [] => []
    | e :: rest => moved lines e :: movedAll rest

namespace Expr

@[simp] theorem movedAll_eq (args : List Expr) :
    moved.movedAll lines args = args.map (moved lines) := by
  induction args with
  | nil => rfl
  | cons e rest ih => simp [moved.movedAll, ih]

@[simp] theorem unplaced_moved (e : Expr) : (e.moved lines).unplaced = e.unplaced := by
  induction e using treeInduction with
  | call src callee args ih => simpa [moved, unplaced] using ih
  | _ => simp [moved, unplaced, *]

/-- To move an expression is to recast it. -/
theorem recast_moved (e : Expr) : e.recast (.moved lines) = e.moved lines := by
  induction e using treeInduction with
  | call src callee args ih =>
    rw [recast, moved, recastAll_eq, movedAll_eq, List.map_congr_left ih]
    rfl
  | intLiteral | floatLiteral | stringLiteral | identifier | foreign => rfl
  | assign src target value ih =>
    rw [recast, moved, ih]
    rfl
  | binary src op left right ihLeft ihRight =>
    rw [recast, moved, ihLeft, ihRight]
    rfl
  | prefixed src op operand ih | group src inner ih =>
    rw [recast, moved, ih]
    rfl

end Expr

/-! ## Statements -/

/-- A declaration that is moved along with its lines. -/
def VarDecl.moved (lines : Int → Position) (decl : VarDecl) : VarDecl :=
  ⟨decl.type, decl.name, decl.init.map (Expr.moved lines), decl.span.moved lines⟩

/-- A statement that is moved along with its lines. -/
def Stmt.moved (lines : Int → Position) : Stmt → Stmt
  | var decl => .var (decl.moved lines)
  | block body => .block (movedBlock body)
  | branch condition thenBlock elseBlock span =>
    .branch (condition.moved lines) (movedBlock thenBlock) (movedElse elseBlock) (span.moved lines)
  | whileLoop condition body span =>
    .whileLoop (condition.moved lines) (movedBlock body) (span.moved lines)
  | forLoop init condition update body span =>
    .forLoop (movedInit init) (condition.map (Expr.moved lines)) (update.map (Expr.moved lines))
      (movedBlock body) (span.moved lines)
  | expr e span => .expr (e.moved lines) (span.moved lines)
  | ret value span => .ret (value.map (Expr.moved lines)) (span.moved lines)
  | foreign tag span => .foreign tag (span.moved lines)
where
  /-- A block that is moved along with its lines. -/
  movedBlock : Block Stmt → Block Stmt
    | ⟨statements, span⟩ => ⟨movedAll statements, span.moved lines⟩
  /-- An alternative that is moved along with its lines. -/
  movedElse : Option (Block Stmt) → Option (Block Stmt)
    | none => none
    | some body => some (movedBlock body)
  /-- The first clause of a loop that is moved along with its lines. -/
  movedInit : Option Stmt → Option Stmt
    | none => none
    | some s => some (moved lines s)
  /-- Several statements that are moved along with their lines. -/
  movedAll : List Stmt → List Stmt
    | [] => []
    | s :: rest => moved lines s :: movedAll rest

/-- A block that is moved along with its lines. -/
def Block.moved (lines : Int → Position) (body : Block Stmt) : Block Stmt :=
  ⟨body.statements.map (Stmt.moved lines), body.span.moved lines⟩

theorem VarDecl.recast_moved (decl : VarDecl) :
    decl.recast (.moved lines) = decl.moved lines := by
  rw [recast, moved, Option.map_congr fun e _ => e.recast_moved]
  rfl

theorem Block.recast_moved {body : Block Stmt}
    (each : ∀ s ∈ body.statements, s.recast (.moved lines) = s.moved lines) :
    body.recast (.moved lines) = body.moved lines := by
  rw [recast, moved, List.map_congr_left each]
  rfl

namespace Stmt

@[simp] theorem movedAll_eq (statements : List Stmt) :
    moved.movedAll lines statements = statements.map (moved lines) := by
  induction statements with
  | nil => rfl
  | cons s rest ih => simp [moved.movedAll, ih]

@[simp] theorem movedBlock_eq (body : Block Stmt) :
    moved.movedBlock lines body = body.moved lines := by
  cases body
  simp [moved.movedBlock, Block.moved]

@[simp] theorem movedElse_eq (elseBlock : Option (Block Stmt)) :
    moved.movedElse lines elseBlock = elseBlock.map (Block.moved lines) := by
  cases elseBlock <;> simp [moved.movedElse]

@[simp] theorem movedInit_eq (init : Option Stmt) :
    moved.movedInit lines init = init.map (moved lines) := by
  cases init <;> simp [moved.movedInit]

@[simp] theorem unplaced_moved (s : Stmt) : (s.moved lines).unplaced = s.unplaced := by
  have inside {body : Block Stmt}
      (ih : ∀ s ∈ body.statements, (s.moved lines).unplaced = s.unplaced) :
      (body.moved lines).unplaced = body.unplaced := by
    simpa [Block.moved, Block.unplaced] using ih
  have alternative {elseBlock : Option (Block Stmt)}
      (ih : ∀ body ∈ elseBlock, ∀ s ∈ body.statements, (s.moved lines).unplaced = s.unplaced) :
      (elseBlock.map (Block.moved lines)).map Block.unplaced = elseBlock.map Block.unplaced := by
    cases elseBlock with
    | none => rfl
    | some body => exact congrArg some (inside (ih body rfl))
  induction s using treeInduction with
  | var decl => simp [moved, unplaced, VarDecl.moved, VarDecl.unplaced, Function.comp_def]
  | block body ih => simp [moved, unplaced, inside ih]
  | branch condition thenBlock elseBlock span ihThen ihElse =>
    simp [moved, unplaced, inside ihThen, alternative ihElse, -Option.map_map]
  | whileLoop condition body span ih => simp [moved, unplaced, inside ih]
  | forLoop init condition update body span ihInit ihBody =>
    have first : (init.map (moved lines)).map unplaced = init.map unplaced := by
      cases init with
      | none => rfl
      | some s => exact congrArg some (ihInit s rfl)
    simp only [moved, unplaced, movedInit_eq, unplacedInit_eq, first, movedBlock_eq,
      unplacedBlock_eq, inside ihBody]
    simp [Function.comp_def]
  | expr e span => simp [moved, unplaced]
  | ret value span => simp [moved, unplaced, Function.comp_def]
  | foreign tag span => rfl

/-- To move a statement is to recast it. -/
theorem recast_moved (s : Stmt) : s.recast (.moved lines) = s.moved lines := by
  have exprs (o : Option Expr) : o.map (Expr.recast (.moved lines)) = o.map (Expr.moved lines) :=
    Option.map_congr fun e _ => e.recast_moved
  induction s using treeInduction with
  | var decl => rw [recast, moved, VarDecl.recast_moved]
  | block body ih => rw [recast, moved, recastBlock_eq, movedBlock_eq, Block.recast_moved ih]
  | branch condition thenBlock elseBlock span ihThen ihElse =>
    have alternative := Option.map_congr fun body member => Block.recast_moved (ihElse body member)
    rw [recast, moved, recastBlock_eq, movedBlock_eq, recastElse_eq, movedElse_eq,
      Block.recast_moved ihThen, alternative, Expr.recast_moved]
    rfl
  | whileLoop condition body span ih =>
    rw [recast, moved, recastBlock_eq, movedBlock_eq, Block.recast_moved ih, Expr.recast_moved]
    rfl
  | forLoop init condition update body span ihInit ihBody =>
    rw [recast, moved, recastBlock_eq, movedBlock_eq, recastInit_eq, movedInit_eq,
      Block.recast_moved ihBody, Option.map_congr ihInit, exprs, exprs]
    rfl
  | expr e span =>
    rw [recast, moved, Expr.recast_moved]
    rfl
  | ret value span =>
    rw [recast, moved, exprs]
    rfl
  | foreign tag span => rfl

end Stmt

/-! ## Programs -/

/-- A parameter that is moved along with its lines. -/
def Param.moved (lines : Int → Position) (param : Param) : Param :=
  { param with span := param.span.moved lines }

/-- A function that is moved along with its lines. -/
def FunctionDecl.moved (lines : Int → Position) (decl : FunctionDecl) : FunctionDecl :=
  { decl with
    params? := decl.params?.map (·.map (Param.moved lines))
    body := decl.body.moved lines
    span := decl.span.moved lines }

/-- A top-level node that is moved along with its lines. -/
def TopLevel.moved (lines : Int → Position) : TopLevel → TopLevel
  | global decl => .global (decl.moved lines)
  | function decl => .function (decl.moved lines)
  | statement s => .statement (s.moved lines)

/-- A program that is moved along with its lines. -/
def Program.moved (lines : Int → Position) (p : Program) : Program :=
  ⟨p.declarations.map (TopLevel.moved lines), p.span.moved lines⟩

/-- To move a node is to recast it. -/
theorem TopLevel.recast_moved (node : TopLevel) :
    node.recast (.moved lines) = node.moved lines := by
  cases node with
  | global decl => rw [recast, moved, VarDecl.recast_moved]
  | function decl =>
    have body := @Block.recast_moved lines decl.body fun s _ => s.recast_moved
    rw [recast, moved, FunctionDecl.recast, FunctionDecl.moved, body]
    cases decl.name? <;> cases decl.entryName? <;> rfl
  | statement s => rw [recast, moved, Stmt.recast_moved]

theorem TopLevel.unplaced_moved (node : TopLevel) :
    (node.moved lines).unplaced = node.unplaced := by
  cases node with
  | global decl => simp [moved, unplaced, VarDecl.moved, VarDecl.unplaced, Function.comp_def]
  | function decl =>
    cases params : decl.params? <;>
      simp [moved, unplaced, FunctionDecl.moved, FunctionDecl.unplaced, Block.moved,
        Block.unplaced, Param.moved, Param.unplaced, Function.comp_def, params]
  | statement s => simp [moved, unplaced]

/-- Moving lines changes nothing but places. -/
theorem Program.unplaced_moved (p : Program) : (p.moved lines).unplaced = p.unplaced := by
  simp [moved, unplaced, TopLevel.unplaced_moved]

end ProcCheck
