import ProcCheck.Analysis.Scan
import ProcCheck.Tree.Walk

/-!
# Checking expressions

Names must resolve and calls must give the right number of arguments; types of operands are
not compared. Every node of the walk is judged on its own, by the tables alone.
-/

namespace ProcCheck

namespace ScanState

/-- What is wrong with a node, leaving aside its parts. -/
def problem? (s : ScanState) : Expr → Option Problem
  | .identifier _ name =>
    if s.seesVariable name || s.seesFunction name then none else some (.undeclaredVariable name)
  | .assign _ target _ => if s.seesVariable target then none else some (.undeclaredTarget target)
  | .call _ callee args =>
    match s.symbols.function? callee with
    | none => some (.undefinedFunction callee)
    | some f =>
      if f.parameters.length = args.length then none
      else some (.wrongArgumentCount callee f.parameters.length args.length)
  | _ => none

/-- The diagnostic of a node, if something is wrong with it. -/
def diagnose (s : ScanState) (e : Expr) : Option Diagnostic :=
  (s.problem? e).map fun problem => ⟨e.line, problem⟩

end ScanState

/-- The tag of a node of unknown kind. -/
def Expr.foreignTag? : Expr → Option Text
  | foreign _ tag => some tag
  | _ => none

namespace Scan

/-- Judges the nodes of an expression, parents before their parts, up to the first of unknown
kind, which cuts the scan short. -/
def checkExpr (e : Expr) : Scan Unit := do
  let s ← get
  let known := e.walk.takeWhile (·.foreignTag?.isNone)
  set (s.report (known.filterMap s.diagnose))
  if let some tag := e.walk.findSome? Expr.foreignTag? then throw (.foreignExpression tag)

end Scan

end ProcCheck
