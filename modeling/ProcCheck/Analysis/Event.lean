import ProcCheck.Tree.Walk
import ProcCheck.Symbol

/-!
# Statements as sequences of events

What a scan does at a statement is a sequence of events in source order. Nested statements
are laid out flat: a control structure is entered and left again around what it holds.
-/

namespace ProcCheck

/-- The parts of a control structure that its statement alone tells. -/
structure ControlHead where
  kind : ControlKind
  span : Span
  condition : Text
  deriving DecidableEq, Repr

namespace ControlHead

/-- The control structure inside `depth` others. -/
def atDepth (head : ControlHead) (depth : Nat) : ControlStructure :=
  ⟨head.kind, head.span.start.line, head.span.stop.line, head.condition, depth⟩

end ControlHead

/-- What happens to a scan. -/
inductive Event where
  | declare (decl : VarDecl)
  | check (e : Expr)
  | enter (head : ControlHead)
  | leave
  | foreign (tag : Text)

namespace Stmt

/-- The control structure that a statement is; a counting loop has only its test as the
condition. -/
def controlHead? : Stmt → Option ControlHead
  | branch condition _ none span => some ⟨.branch, span, condition.text⟩
  | branch condition _ (some _) span => some ⟨.branchElse, span, condition.text⟩
  | whileLoop condition _ span => some ⟨.whileLoop, span, condition.text⟩
  | forLoop _ condition _ _ span => some ⟨.forLoop, span, (condition.map Expr.text).getD []⟩
  | _ => none

/-- What happens inside a control structure, between entering and leaving it. -/
def enclosed (head : Option ControlHead) (inner : List Event) : List Event :=
  (head.map Event.enter).toList ++ inner ++ (head.map fun _ => Event.leave).toList

/-- The events of a statement, in source order. -/
def events : Stmt → List Event
  | var decl => [.declare decl]
  | block body => blockEvents body
  | expr e _ => [.check e]
  | ret value _ => value.toList.map .check
  | s@(branch condition thenBlock elseBlock _) =>
    enclosed s.controlHead? (.check condition :: (blockEvents thenBlock ++ elseEvents elseBlock))
  | s@(whileLoop condition body _) =>
    enclosed s.controlHead? (.check condition :: blockEvents body)
  | s@(forLoop init condition update body _) =>
    enclosed s.controlHead?
      (initEvents init ++ condition.toList.map .check ++ update.toList.map .check ++
        blockEvents body)
  | foreign tag _ => [.foreign tag]
where
  /-- The events of a block. -/
  blockEvents : Block Stmt → List Event
    | ⟨statements, _⟩ => allEvents statements
  /-- The events of an alternative. -/
  elseEvents : Option (Block Stmt) → List Event
    | none => []
    | some body => blockEvents body
  /-- The events of the first clause of a loop. -/
  initEvents : Option Stmt → List Event
    | none => []
    | some s => events s
  /-- The events of several statements. -/
  allEvents : List Stmt → List Event
    | [] => []
    | s :: rest => events s ++ allEvents rest

end Stmt

end ProcCheck
