import ProcCheck.Analysis.Event

/-!
# Induction over trees

Expressions nest through lists of arguments and statements through blocks, so the derived
recursors speak about lists, options and blocks as well. The principles here have one case for
each kind of node and speak about the nodes below it only. The walks of the library recurse the
same way; the equations at the end put them in terms of `List.flatMap`.
-/

namespace ProcCheck

/-- Induction over expressions: what holds of a node if it holds of its direct parts holds of
every expression. -/
@[elab_as_elim]
theorem Expr.treeInduction {motive : Expr → Prop}
    (intLiteral : ∀ src value, motive (.intLiteral src value))
    (floatLiteral : ∀ src value, motive (.floatLiteral src value))
    (stringLiteral : ∀ src value, motive (.stringLiteral src value))
    (identifier : ∀ src name, motive (.identifier src name))
    (call : ∀ src callee args, (∀ a ∈ args, motive a) → motive (.call src callee args))
    (assign : ∀ src target value, motive value → motive (.assign src target value))
    (binary : ∀ src op left right, motive left → motive right → motive (.binary src op left right))
    (prefixed : ∀ src op operand, motive operand → motive (.prefixed src op operand))
    (group : ∀ src inner, motive inner → motive (.group src inner))
    (foreign : ∀ src tag, motive (.foreign src tag)) (e : Expr) : motive e :=
  @Expr.rec motive (fun args => ∀ a ∈ args, motive a) intLiteral floatLiteral stringLiteral
    identifier call assign binary prefixed group foreign
    (fun _ h => absurd h List.not_mem_nil)
    (fun _ _ head tail => List.forall_mem_cons.2 ⟨head, tail⟩) e

/-- Induction over expressions without regard to their kinds. -/
@[elab_as_elim]
theorem Expr.childrenInduction {motive : Expr → Prop}
    (step : ∀ e : Expr, (∀ child ∈ e.children, motive child) → motive e) (e : Expr) : motive e := by
  induction e using Expr.treeInduction with
  | call src callee args ih => exact step _ ih
  | assign src target value ih | prefixed src op value ih | group src value ih =>
    exact step _ (by simpa [children] using ih)
  | binary src op left right ihLeft ihRight => exact step _ (by simp [children, ihLeft, ihRight])
  | _ => exact step _ (by simp [children])

/-- Induction over statements: what holds of a statement if it holds of all statements in its
blocks and of the first clause of a loop holds of every statement. -/
@[elab_as_elim]
theorem Stmt.treeInduction {motive : Stmt → Prop}
    (var : ∀ decl, motive (.var decl))
    (block : ∀ body : Block Stmt, (∀ s ∈ body.statements, motive s) → motive (.block body))
    (branch : ∀ condition (thenBlock : Block Stmt) (elseBlock : Option (Block Stmt)) span,
      (∀ s ∈ thenBlock.statements, motive s) →
      (∀ body ∈ elseBlock, ∀ s ∈ body.statements, motive s) →
      motive (.branch condition thenBlock elseBlock span))
    (whileLoop : ∀ condition (body : Block Stmt) span,
      (∀ s ∈ body.statements, motive s) → motive (.whileLoop condition body span))
    (forLoop : ∀ (init : Option Stmt) condition update (body : Block Stmt) span,
      (∀ s ∈ init, motive s) → (∀ s ∈ body.statements, motive s) →
      motive (.forLoop init condition update body span))
    (expr : ∀ e span, motive (.expr e span))
    (ret : ∀ value span, motive (.ret value span))
    (foreign : ∀ tag span, motive (.foreign tag span)) (s : Stmt) : motive s :=
  @Stmt.rec motive (fun body => ∀ s ∈ body.statements, motive s)
    (fun elseBlock => ∀ body ∈ elseBlock, ∀ s ∈ body.statements, motive s)
    (fun init => ∀ s ∈ init, motive s) (fun statements => ∀ s ∈ statements, motive s)
    var block branch whileLoop forLoop expr ret foreign
    (fun _ _ h => h)
    (fun _ h => absurd h (Option.not_mem_none _))
    (fun _ h body member => by cases member; exact h)
    (fun _ h => absurd h (Option.not_mem_none _))
    (fun _ h s member => by cases member; exact h)
    (fun _ h => absurd h List.not_mem_nil)
    (fun _ _ head tail => List.forall_mem_cons.2 ⟨head, tail⟩) s

/-! ## Walks as flat maps -/

@[simp] theorem Expr.walkAll_eq (args : List Expr) : walkAll args = args.flatMap walk := by
  induction args with
  | nil => rfl
  | cons e rest ih => simp [walkAll, ih]

/-- The walk of an expression: the expression, then the walks of its parts. -/
theorem Expr.walk_eq (e : Expr) : e.walk = e :: e.children.flatMap walk := by
  cases e <;> simp [walk, children]

namespace Stmt

theorem allEvents_eq (statements : List Stmt) :
    events.allEvents statements = statements.flatMap events := by
  induction statements with
  | nil => simp [events.allEvents]
  | cons s rest ih => simp [events.allEvents, ih]

@[simp] theorem blockEvents_eq (body : Block Stmt) :
    events.blockEvents body = body.statements.flatMap events := by
  cases body
  exact allEvents_eq _

@[simp] theorem elseEvents_eq (elseBlock : Option (Block Stmt)) :
    events.elseEvents elseBlock = elseBlock.toList.flatMap (·.statements.flatMap events) := by
  cases elseBlock <;> simp [events.elseEvents]

@[simp] theorem initEvents_eq (init : Option Stmt) :
    events.initEvents init = init.toList.flatMap events := by
  cases init <;> simp [events.initEvents]

@[simp] theorem nestedInAll_eq (statements : List Stmt) :
    nested.nestedInAll statements = statements.flatMap nested := by
  induction statements with
  | nil => rfl
  | cons s rest ih => simp [nested.nestedInAll, ih]

@[simp] theorem nestedInBlock_eq (body : Block Stmt) :
    nested.nestedInBlock body = body.statements.flatMap nested := by
  cases body
  exact nestedInAll_eq _

@[simp] theorem nestedInElse_eq (elseBlock : Option (Block Stmt)) :
    nested.nestedInElse elseBlock =
      elseBlock.toList.flatMap fun body => block body :: body.statements.flatMap nested := by
  cases elseBlock <;> simp [nested.nestedInElse]

/-- A statement is met before the statements under it. -/
theorem nested_eq (s : Stmt) : s.nested = s :: s.children.flatMap nested := by
  cases s with
  | branch _ _ elseBlock _ => cases elseBlock <;> simp [nested, children]
  | _ => simp [nested, children]

/-- The walk of a statement: the expressions that it owns, then the walks of its children. -/
theorem walk_eq (s : Stmt) :
    s.walk = s.expressions.flatMap Expr.walk ++ s.children.flatMap walk := by
  rw [walk, nested_eq, List.flatMap_cons, List.flatMap_assoc]
  rfl

end Stmt

end ProcCheck
