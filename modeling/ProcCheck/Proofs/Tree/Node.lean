import Mathlib.Logic.Relation
import ProcCheck.Proofs.Grammar.Walk

/-!
# Nodes of trees

A program, its declarations, their parameters, statements and expressions are the nodes of one
tree, in which every node has its children in source order. The walks over expressions recurse
differently for each kind of node; on all of them they visit what is under a node, parents before
their children, provided that the first clause of a loop is one that a loop can have.
-/

namespace ProcCheck

/-- A node of the tree of a program. A block is a node as a statement, and so is the body of a
function. -/
inductive Node where
  | program (p : Program)
  | global (decl : VarDecl)
  | function (decl : FunctionDecl)
  | param (p : Param)
  | stmt (s : Stmt)
  | expr (e : Expr)

/-- A top-level node as a node of its program. -/
def TopLevel.node : TopLevel → Node
  | global decl => .global decl
  | function decl => .function decl
  | statement s => .stmt s

namespace Node

/-- Where a node stands. -/
def span : Node → Span
  | program p => p.span
  | global decl => decl.span
  | function decl => decl.span
  | param p => p.span
  | stmt s => s.span
  | expr e => e.span

/-- The expression that a node is, if it is one. -/
def expr? : Node → Option Expr
  | expr e => some e
  | _ => none

/-- The first clause of the loop that a node is, if it is one. -/
def clause? : Node → Option Stmt
  | stmt (.forLoop init _ _ _ _) => init
  | _ => none

/-- The nodes directly under a statement, in source order. -/
def ofStmt : Stmt → List Node
  | .var decl => decl.init.toList.map expr
  | .block body => body.statements.map stmt
  | .branch condition thenBlock elseBlock _ =>
    expr condition :: stmt (.block thenBlock) :: elseBlock.toList.map fun body => stmt (.block body)
  | .whileLoop condition body _ => [expr condition, stmt (.block body)]
  | .forLoop init condition update body _ =>
    init.toList.map stmt ++ (condition.toList.map expr ++
      (update.toList.map expr ++ [stmt (.block body)]))
  | .expr e _ => [expr e]
  | .ret value _ => value.toList.map expr
  | .foreign _ _ => []

/-- The nodes directly under a node, in source order. -/
def children : Node → List Node
  | program p => p.declarations.map TopLevel.node
  | global decl => decl.init.toList.map expr
  | function decl => decl.params.map param ++ [stmt (.block decl.body)]
  | param _ => []
  | stmt s => ofStmt s
  | expr e => e.children.map expr

/-- Every expression under a node, in the order of the walks. -/
def walk : Node → List Expr
  | program p => p.walk
  | global decl => decl.init.toList.flatMap Expr.walk
  | function decl => (Stmt.block decl.body).walk
  | param _ => []
  | stmt s => s.walk
  | expr e => e.walk

/-- The other node is this one or under it. -/
def Has : Node → Node → Prop := Relation.ReflTransGen fun parent child => child ∈ parent.children

@[simp] theorem span_node (node : TopLevel) : node.node.span = node.span := by
  cases node <;> rfl

@[simp] theorem walk_node (node : TopLevel) : node.node.walk = node.walk := by
  cases node <;> rfl

/-- Induction over nodes without regard to their kinds. -/
@[elab_as_elim]
theorem childrenInduction {motive : Node → Prop}
    (step : ∀ n : Node, (∀ child ∈ n.children, motive child) → motive n) (n : Node) : motive n := by
  have exprs (e : Expr) : motive (expr e) := by
    induction e using Expr.childrenInduction with
    | step e ih => exact step _ (by simpa [children] using ih)
  have optional (e : Option Expr) : ∀ child ∈ e.toList.map expr, motive child := by
    simpa using fun e _ => exprs e
  have stmts (s : Stmt) : motive (stmt s) := by
    have block {b : Block Stmt} (each : ∀ s ∈ b.statements, motive (stmt s)) :
        motive (stmt (.block b)) := step _ (by simpa [children, ofStmt] using each)
    induction s using Stmt.treeInduction with
    | var decl => exact step _ (optional decl.init)
    | block body each => exact block each
    | branch condition thenBlock elseBlock span thenEach elseEach =>
      refine step _ (List.forall_mem_cons.2 ⟨exprs condition, ?_⟩)
      refine List.forall_mem_cons.2 ⟨block thenEach, ?_⟩
      simpa using fun b some => block (elseEach b some)
    | whileLoop condition body span each =>
      exact step _ (by simpa [children, ofStmt, exprs] using block each)
    | forLoop init condition update body span first each =>
      refine step _ (List.forall_mem_append.2 ⟨by simpa using first, ?_⟩)
      refine List.forall_mem_append.2 ⟨optional condition, ?_⟩
      exact List.forall_mem_append.2 ⟨optional update, by simpa using block each⟩
    | expr e span => exact step _ (by simpa [children, ofStmt] using exprs e)
    | ret value span => exact step _ (optional value)
    | foreign tag span => exact step _ (by simp [children, ofStmt])
  have params (p : Param) : motive (param p) := step _ (by simp [children])
  have globals (decl : VarDecl) : motive (global decl) := step _ (optional decl.init)
  have functions (decl : FunctionDecl) : motive (function decl) := by
    refine step _ (List.forall_mem_append.2 ⟨by simpa using fun p _ => params p, ?_⟩)
    simpa using stmts (.block decl.body)
  cases n with
  | program p =>
    refine step _ fun child member => ?_
    obtain ⟨node, -, rfl⟩ := List.mem_map.1 member
    cases node with
    | global decl => exact globals decl
    | function decl => exact functions decl
    | statement s => exact stmts s
  | global decl => exact globals decl
  | function decl => exact functions decl
  | param p => exact params p
  | stmt s => exact stmts s
  | expr e => exact exprs e

/-! ## Walks -/

section Walk

variable {n m : Node} {e : Expr}

/-- The walk of a node: the expression that it is, then the walks of its children. -/
theorem walk_eq (clause : ∀ s ∈ n.clause?, s.isClause) :
    n.walk = n.expr?.toList ++ n.children.flatMap walk := by
  cases n with
  | program p =>
    have each : (fun node : TopLevel => node.node.walk) = TopLevel.walk := funext walk_node
    simp only [children, List.flatMap_map, each]
    rfl
  | global decl => simp [walk, children, expr?, List.flatMap_map]
  | function decl => simp [walk, children, expr?, List.flatMap_map]
  | param p => rfl
  | expr e => simp [walk, children, expr?, List.flatMap_map, Expr.walk_eq e]
  | stmt s =>
    rw [walk, Stmt.walk_eq]
    cases s with
    | forLoop init condition update body span =>
      have first : (Stmt.expressions.first init).flatMap Expr.walk =
          init.toList.flatMap Stmt.walk := by
        cases init with
        | none => rfl
        | some s =>
          have owned : s.children = [] := by
            have := clause s rfl
            cases s <;> simp_all [Stmt.isClause, Stmt.children]
          simp [Stmt.expressions.first, Stmt.walk_eq s, owned]
      simp [children, ofStmt, expr?, walk, Stmt.expressions, Stmt.children, first, List.flatMap_map]
    | branch condition thenBlock elseBlock span =>
      cases elseBlock <;>
        simp [children, ofStmt, expr?, walk, Stmt.expressions, Stmt.children]
    | _ =>
      simp [children, ofStmt, expr?, walk, Stmt.expressions, Stmt.children, List.flatMap_map]

variable (formed : ∀ m, n.Has m → ∀ s ∈ m.clause?, s.isClause)

include formed

/-- What the walk of a node under another visits, the walk of the other does in the same order. -/
theorem walk_sublist (has : n.Has m) : m.walk.Sublist n.walk := by
  induction has using Relation.ReflTransGen.head_induction_on with
  | refl => exact .refl _
  | @head n child member has ih =>
    have under : child.walk.Sublist n.walk := by
      rw [walk_eq (formed n .refl)]
      obtain ⟨before, after, same⟩ := List.append_of_mem member
      rw [same, List.flatMap_append, List.flatMap_cons]
      exact (List.sublist_append_left _ _).trans <|
        (List.sublist_append_right _ _).trans (List.sublist_append_right _ _)
    exact (ih fun m has => formed m (.head member has)).trans under

/-- The walk of a node visits the expressions at and under it. -/
theorem mem_walk : e ∈ n.walk ↔ n.Has (expr e) := by
  constructor
  · intro member
    induction n using childrenInduction with
    | step n ih =>
      rw [walk_eq (formed n .refl), List.mem_append, List.mem_flatMap] at member
      rcases member with own | ⟨child, among, member⟩
      · cases n with
        | expr e' =>
          obtain rfl := List.mem_singleton.1 own
          exact .refl
        | _ => cases own
      · exact .head among (ih child among (fun m has => formed m (.head among has)) member)
  · intro has
    have own : e ∈ (expr e).walk := by simp [walk, Expr.walk_eq e]
    exact (walk_sublist formed has).mem own

/-- The walk of a node visits an expression before the parts of it. -/
theorem pair_sublist_walk (member : e ∈ n.walk) {part : Expr} (direct : part ∈ e.children) :
    [e, part].Sublist n.walk := by
  have under : e.walk.Sublist n.walk := walk_sublist formed ((mem_walk formed).1 member)
  have among : part ∈ e.children.flatMap Expr.walk :=
    List.mem_flatMap.2 ⟨part, direct, by simp [Expr.walk_eq part]⟩
  refine List.Sublist.trans ?_ under
  rw [Expr.walk_eq e]
  exact .cons_cons e (List.singleton_sublist.2 among)

end Walk

end Node

end ProcCheck
