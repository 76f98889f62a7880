import ProcCheck.Proofs.Tree.Induction

/-!
# Trees without their places

`unplaced` takes all places out of a tree and leaves the rest as it is: kinds, names, operators,
nesting, values and texts. Two trees that are equal without their places differ in lines and
columns only.
-/

namespace ProcCheck

/-- The text alone. -/
def Excerpt.unplaced (src : Excerpt) : Excerpt := ⟨src.text, default⟩

@[simp] theorem Excerpt.unplaced_text (src : Excerpt) : src.unplaced.text = src.text := rfl

@[simp] theorem Excerpt.unplaced_append (a b : Excerpt) :
    (a ++ b).unplaced = a.unplaced ++ b.unplaced := rfl

theorem Excerpt.unplaced_eq_iff {a b : Excerpt} : a.unplaced = b.unplaced ↔ a.text = b.text := by
  simp [unplaced]

/-- An expression without its places. -/
def Expr.unplaced : Expr → Expr
  | intLiteral src value => .intLiteral src.unplaced value
  | floatLiteral src value => .floatLiteral src.unplaced value
  | stringLiteral src value => .stringLiteral src.unplaced value
  | identifier src name => .identifier src.unplaced name
  | call src callee args => .call src.unplaced callee (unplacedAll args)
  | assign src target value => .assign src.unplaced target value.unplaced
  | binary src op left right => .binary src.unplaced op left.unplaced right.unplaced
  | prefixed src op operand => .prefixed src.unplaced op operand.unplaced
  | group src inner => .group src.unplaced inner.unplaced
  | foreign src tag => .foreign src.unplaced tag
where
  /-- Several expressions without their places. -/
  unplacedAll : List Expr → List Expr
    | [] => []
    | e :: rest => unplaced e :: unplacedAll rest

namespace Expr

@[simp] theorem unplacedAll_eq (args : List Expr) :
    unplaced.unplacedAll args = args.map unplaced := by
  induction args with
  | nil => rfl
  | cons e rest ih => simp [unplaced.unplacedAll, ih]

@[simp] theorem unplaced_src (e : Expr) : e.unplaced.src = e.src.unplaced := by
  cases e <;> rfl

end Expr

/-- A declaration without its places. -/
def VarDecl.unplaced (decl : VarDecl) : VarDecl :=
  ⟨decl.type, decl.name, decl.init.map Expr.unplaced, default⟩

/-- A statement without its places. -/
def Stmt.unplaced : Stmt → Stmt
  | var decl => .var decl.unplaced
  | block body => .block (unplacedBlock body)
  | branch condition thenBlock elseBlock _ =>
    .branch condition.unplaced (unplacedBlock thenBlock) (unplacedElse elseBlock) default
  | whileLoop condition body _ => .whileLoop condition.unplaced (unplacedBlock body) default
  | forLoop init condition update body _ =>
    .forLoop (unplacedInit init) (condition.map Expr.unplaced) (update.map Expr.unplaced)
      (unplacedBlock body) default
  | expr e _ => .expr e.unplaced default
  | ret value _ => .ret (value.map Expr.unplaced) default
  | foreign tag _ => .foreign tag default
where
  /-- A block without its places. -/
  unplacedBlock : Block Stmt → Block Stmt
    | ⟨statements, _⟩ => ⟨unplacedAll statements, default⟩
  /-- An alternative without its places. -/
  unplacedElse : Option (Block Stmt) → Option (Block Stmt)
    | none => none
    | some body => some (unplacedBlock body)
  /-- The first clause of a loop without its places. -/
  unplacedInit : Option Stmt → Option Stmt
    | none => none
    | some s => some (unplaced s)
  /-- Several statements without their places. -/
  unplacedAll : List Stmt → List Stmt
    | [] => []
    | s :: rest => unplaced s :: unplacedAll rest

/-- A block without its places. -/
def Block.unplaced (body : Block Stmt) : Block Stmt := ⟨body.statements.map Stmt.unplaced, default⟩

namespace Stmt

@[simp] theorem unplacedAll_eq (statements : List Stmt) :
    unplaced.unplacedAll statements = statements.map unplaced := by
  induction statements with
  | nil => rfl
  | cons s rest ih => simp [unplaced.unplacedAll, ih]

@[simp] theorem unplacedBlock_eq (body : Block Stmt) :
    unplaced.unplacedBlock body = body.unplaced := by
  cases body
  simp [unplaced.unplacedBlock, Block.unplaced]

@[simp] theorem unplacedElse_eq (elseBlock : Option (Block Stmt)) :
    unplaced.unplacedElse elseBlock = elseBlock.map Block.unplaced := by
  cases elseBlock <;> simp [unplaced.unplacedElse]

@[simp] theorem unplacedInit_eq (init : Option Stmt) :
    unplaced.unplacedInit init = init.map unplaced := by
  cases init <;> simp [unplaced.unplacedInit]

end Stmt

/-- A parameter without its place. -/
def Param.unplaced (param : Param) : Param := ⟨param.type, param.name, default⟩

/-- A function without its places. -/
def FunctionDecl.unplaced (decl : FunctionDecl) : FunctionDecl :=
  { decl with
    params? := decl.params?.map (·.map Param.unplaced)
    body := decl.body.unplaced
    span := default }

/-- A top-level node without its places. -/
def TopLevel.unplaced : TopLevel → TopLevel
  | global decl => .global decl.unplaced
  | function decl => .function decl.unplaced
  | statement s => .statement s.unplaced

/-- A program without its places. -/
def Program.unplaced (p : Program) : Program := ⟨p.declarations.map TopLevel.unplaced, default⟩

end ProcCheck
