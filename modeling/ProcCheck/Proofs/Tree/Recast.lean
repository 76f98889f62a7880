import Mathlib.Data.List.Basic
import ProcCheck.Proofs.Tree.Induction

/-!
# Recasting trees

A recasting gives a tree other names, texts and places. It leaves the shape of the tree alone:
kinds of nodes, operators, values, spellings of types and nesting are those of the tree. So walks
over the recast tree visit the recast nodes, and its events are the events of the tree, recast.
-/

namespace ProcCheck

/-- Other names, texts and places for the nodes of a tree. -/
structure Recast where
  /-- What a name becomes. -/
  name : Text → Text
  /-- Where a place is moved to. -/
  place : Position → Position
  /-- Where the place behind a name is moved to. -/
  behind : Text → Position → Position
  /-- The excerpt that an expression gets. -/
  src : Expr → Excerpt

variable {c : Recast}

/-- A span with both ends moved. -/
def Span.recast (c : Recast) (s : Span) : Span := ⟨c.place s.start, c.place s.stop⟩

/-! ## Expressions -/

/-- An expression with other names, texts and places. -/
def Expr.recast (c : Recast) : Expr → Expr
  | e@(intLiteral _ value) => .intLiteral (c.src e) value
  | e@(floatLiteral _ value) => .floatLiteral (c.src e) value
  | e@(stringLiteral _ value) => .stringLiteral (c.src e) value
  | e@(identifier _ name) => .identifier (c.src e) (c.name name)
  | e@(call _ callee args) => .call (c.src e) (c.name callee) (recastAll args)
  | e@(assign _ target value) => .assign (c.src e) (c.name target) (value.recast c)
  | e@(binary _ op left right) => .binary (c.src e) op (left.recast c) (right.recast c)
  | e@(prefixed _ op operand) => .prefixed (c.src e) op (operand.recast c)
  | e@(group _ inner) => .group (c.src e) (inner.recast c)
  | e@(foreign _ tag) => .foreign (c.src e) tag
where
  /-- Several expressions with other names, texts and places. -/
  recastAll : List Expr → List Expr
    | [] => []
    | e :: rest => recast c e :: recastAll rest

namespace Expr

@[simp] theorem recastAll_eq (args : List Expr) :
    recast.recastAll c args = args.map (recast c) := by
  induction args with
  | nil => rfl
  | cons e rest ih => rw [recast.recastAll, ih, List.map_cons]

@[simp] theorem src_recast (e : Expr) : (e.recast c).src = c.src e := by
  cases e <;> rfl

@[simp] theorem walk_recast (e : Expr) : (e.recast c).walk = e.walk.map (recast c) := by
  induction e using treeInduction with
  | call src callee args ih =>
    simp only [recast, walk, recastAll_eq, walkAll_eq, List.map_cons, List.map_flatMap,
      List.flatMap_map]
    rw [List.flatMap_congr ih]
  | _ => simp [recast, walk, *]

/-- A recast call names the recast function. -/
theorem callee_recast (e : Expr) : (e.recast c).callSite?.map CallSite.callee =
    e.callSite?.map fun site => c.name site.callee := by
  cases e <;> rfl

end Expr

/-! ## Statements -/

/-- A declaration with other names, texts and places. -/
def VarDecl.recast (c : Recast) (decl : VarDecl) : VarDecl :=
  ⟨decl.type, c.name decl.name, decl.init.map (Expr.recast c), decl.span.recast c⟩

/-- A statement with other names, texts and places. -/
def Stmt.recast (c : Recast) : Stmt → Stmt
  | var decl => .var (decl.recast c)
  | block body => .block (recastBlock body)
  | branch condition thenBlock elseBlock span =>
    .branch (condition.recast c) (recastBlock thenBlock) (recastElse elseBlock) (span.recast c)
  | whileLoop condition body span =>
    .whileLoop (condition.recast c) (recastBlock body) (span.recast c)
  | forLoop init condition update body span =>
    .forLoop (recastInit init) (condition.map (Expr.recast c)) (update.map (Expr.recast c))
      (recastBlock body) (span.recast c)
  | expr e span => .expr (e.recast c) (span.recast c)
  | ret value span => .ret (value.map (Expr.recast c)) (span.recast c)
  | foreign tag span => .foreign tag (span.recast c)
where
  /-- A block with other names, texts and places. -/
  recastBlock : Block Stmt → Block Stmt
    | ⟨statements, span⟩ => ⟨recastAll statements, span.recast c⟩
  /-- An alternative with other names, texts and places. -/
  recastElse : Option (Block Stmt) → Option (Block Stmt)
    | none => none
    | some body => some (recastBlock body)
  /-- The first clause of a loop with other names, texts and places. -/
  recastInit : Option Stmt → Option Stmt
    | none => none
    | some s => some (recast c s)
  /-- Several statements with other names, texts and places. -/
  recastAll : List Stmt → List Stmt
    | [] => []
    | s :: rest => recast c s :: recastAll rest

/-- A block with other names, texts and places. -/
def Block.recast (c : Recast) (body : Block Stmt) : Block Stmt :=
  ⟨body.statements.map (Stmt.recast c), body.span.recast c⟩

namespace Stmt

@[simp] theorem recastAll_eq (statements : List Stmt) :
    recast.recastAll c statements = statements.map (recast c) := by
  induction statements with
  | nil => rfl
  | cons s rest ih => rw [recast.recastAll, ih, List.map_cons]

@[simp] theorem recastBlock_eq (body : Block Stmt) :
    recast.recastBlock c body = body.recast c := by
  cases body
  simp [recast.recastBlock, Block.recast]

@[simp] theorem recastElse_eq (elseBlock : Option (Block Stmt)) :
    recast.recastElse c elseBlock = elseBlock.map (Block.recast c) := by
  cases elseBlock <;> simp [recast.recastElse]

@[simp] theorem recastInit_eq (init : Option Stmt) :
    recast.recastInit c init = init.map (recast c) := by
  cases init <;> simp [recast.recastInit]

@[simp] theorem expressions_recast (s : Stmt) :
    (s.recast c).expressions = s.expressions.map (Expr.recast c) := by
  induction s using treeInduction with
  | forLoop init condition update body span ihInit ihBody =>
    have first : expressions.first (init.map (recast c)) =
        (expressions.first init).map (Expr.recast c) := by
      cases init with
      | none => rfl
      | some s => exact ihInit s rfl
    simp [recast, expressions, first, Option.toList_map]
  | _ => simp [recast, expressions, VarDecl.recast, Option.toList_map]

@[simp] theorem nested_recast (s : Stmt) :
    (s.recast c).nested = s.nested.map (recast c) := by
  have inside {body : Block Stmt}
      (ih : ∀ s ∈ body.statements, (s.recast c).nested = s.nested.map (recast c)) :
      (body.recast c).statements.flatMap nested =
        (body.statements.flatMap nested).map (recast c) := by
    rw [Block.recast, List.flatMap_map, List.map_flatMap, List.flatMap_congr ih]
  induction s using treeInduction with
  | block body ih | whileLoop condition body span ih => simp [recast, nested, inside ih]
  | branch condition thenBlock elseBlock span ihThen ihElse =>
    cases elseBlock with
    | none => simp [recast, nested, inside ihThen]
    | some body => simp [recast, nested, inside ihThen, inside (ihElse body rfl)]
  | forLoop init condition update body span ihInit ihBody => simp [recast, nested, inside ihBody]
  | _ => rfl

@[simp] theorem walk_recast (s : Stmt) : (s.recast c).walk = s.walk.map (Expr.recast c) := by
  simp [walk, List.flatMap_map, List.map_flatMap]

/-- Where no two names become one, a recast statement calls a recast name just where the statement
calls the name. -/
theorem callsTo_recast (injective : Function.Injective c.name) (s : Stmt) (name : Text) :
    (s.recast c).callsTo (c.name name) = s.callsTo name := by
  have callees : (s.recast c).calls.map CallSite.callee =
      s.calls.map fun site => c.name site.callee := by
    simp only [calls, walk_recast, List.filterMap_map, List.map_filterMap, Function.comp_def,
      Expr.callee_recast]
  calc (s.recast c).callsTo (c.name name)
    _ = ((s.recast c).calls.map CallSite.callee).any (· = c.name name) := by
      rw [callsTo, List.any_map]
      rfl
    _ = s.callsTo name := by
      rw [callees, List.any_map, callsTo]
      simp [injective.eq_iff, Function.comp_def]

end Stmt

/-! ## Events -/

/-- The head of a control structure with another condition, elsewhere. -/
def ControlHead.recast (c : Recast) (text : Text → Text) (head : ControlHead) : ControlHead :=
  ⟨head.kind, head.span.recast c, text head.condition⟩

/-- An event at the recast nodes. -/
def Event.recast (c : Recast) (text : Text → Text) : Event → Event
  | declare decl => .declare (decl.recast c)
  | check e => .check (e.recast c)
  | enter head => .enter (head.recast c text)
  | leave => .leave
  | foreign tag => .foreign tag

namespace Stmt

variable {text : Text → Text}

theorem enclosed_recast (head : Option ControlHead) (inner : List Event) :
    enclosed (head.map (ControlHead.recast c text)) (inner.map (Event.recast c text)) =
      (enclosed head inner).map (Event.recast c text) := by
  cases head <;> simp [enclosed, Event.recast]

section Conditions

variable (texts : ∀ e, (c.src e).text = text e.text) (empty : text [] = [])

include texts empty

theorem controlHead?_recast (s : Stmt) :
    (s.recast c).controlHead? = s.controlHead?.map (ControlHead.recast c text) := by
  have condition (e : Expr) : (e.recast c).text = text e.text := by
    rw [Expr.text, Expr.src_recast, texts]
  cases s with
  | branch test thenBlock elseBlock span =>
    cases elseBlock <;> simp [recast, controlHead?, ControlHead.recast, condition]
  | whileLoop test body span => simp [recast, controlHead?, ControlHead.recast, condition]
  | forLoop init test update body span =>
    cases test <;> simp [recast, controlHead?, ControlHead.recast, condition, empty]
  | _ => rfl

/-- The events of a recast statement are those of the statement, each at the recast nodes. -/
theorem events_recast (s : Stmt) :
    (s.recast c).events = s.events.map (Event.recast c text) := by
  have inside {body : Block Stmt}
      (ih : ∀ s ∈ body.statements, (s.recast c).events = s.events.map (Event.recast c text)) :
      (body.recast c).statements.flatMap events =
        (body.statements.flatMap events).map (Event.recast c text) := by
    rw [Block.recast, List.flatMap_map, List.map_flatMap, List.flatMap_congr ih]
  have head (s : Stmt) := controlHead?_recast texts empty s
  induction s using treeInduction with
  | block body ih => simp [recast, events, inside ih]
  | branch condition thenBlock elseBlock span ihThen ihElse =>
    have here := head (branch condition thenBlock elseBlock span)
    rw [recast] at here ⊢
    simp only [events, here, ← enclosed_recast]
    cases elseBlock with
    | none => simp [inside ihThen, Event.recast]
    | some body => simp [inside ihThen, inside (ihElse body rfl), Event.recast]
  | whileLoop condition body span ih =>
    have here := head (whileLoop condition body span)
    rw [recast] at here ⊢
    simp only [events, here, ← enclosed_recast]
    simp [inside ih, Event.recast]
  | forLoop init condition update body span ihInit ihBody =>
    have here := head (forLoop init condition update body span)
    have first : (init.toList.map (recast c)).flatMap events =
        (init.toList.flatMap events).map (Event.recast c text) := by
      cases init with
      | none => rfl
      | some s => simpa using ihInit s rfl
    rw [recast] at here ⊢
    simp only [events, here, ← enclosed_recast]
    simp [first, inside ihBody, Event.recast, Option.toList_map, Function.comp_def]
  | ret value span => cases value <;> simp [recast, events, Event.recast]
  | _ => simp [recast, events, Event.recast]

end Conditions

end Stmt

/-! ## Programs -/

/-- A parameter with another name, elsewhere. It ends where its name ends. -/
def Param.recast (c : Recast) (param : Param) : Param :=
  ⟨param.type, c.name param.name,
    ⟨c.place param.span.start, c.behind param.name param.span.stop⟩⟩

/-- A function with other names, texts and places. -/
def FunctionDecl.recast (c : Recast) (decl : FunctionDecl) : FunctionDecl where
  returnType := decl.returnType
  name? := decl.name?.map c.name
  entryName? := decl.entryName?.map c.name
  params? := decl.params?.map (·.map (Param.recast c))
  body := decl.body.recast c
  span := decl.span.recast c

theorem FunctionDecl.name_recast (empty : c.name [] = []) (decl : FunctionDecl) :
    (decl.recast c).name = c.name decl.name := by
  cases reserved : decl.entryName? <;> cases own : decl.name? <;>
    simp [recast, name, reserved, own, empty]

@[simp] theorem FunctionDecl.params_recast (decl : FunctionDecl) :
    (decl.recast c).params = decl.params.map (Param.recast c) := by
  cases params : decl.params? <;> simp [recast, FunctionDecl.params, params]

/-- A top-level node with other names, texts and places. -/
def TopLevel.recast (c : Recast) : TopLevel → TopLevel
  | global decl => .global (decl.recast c)
  | function decl => .function (decl.recast c)
  | statement s => .statement (s.recast c)

end ProcCheck
