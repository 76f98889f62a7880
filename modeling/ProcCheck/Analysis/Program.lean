import ProcCheck.Analysis.Declare
import ProcCheck.Grammar.Program

/-!
# Analysing programs

The top-level nodes are scanned in order, and a program without an entry function gets a
diagnostic of its own at the end.
-/

namespace ProcCheck

namespace Scan

/-- Scans a top-level node. -/
def topLevel (entry : Text) : TopLevel → Scan Unit
  | .global decl => declareGlobal decl
  | .function decl => discard (declareFunction entry decl)
  | .statement s => statement s

/-- Reports a missing entry function. -/
def finish (entry : Text) : Scan Unit := do
  if (← get).symbols.functions.all (·.classification ≠ .entry) then
    report 0 (.missingEntry entry)

/-- Scans a whole program. -/
def program (entry : Text) (p : Program) : Scan Unit := do
  p.declarations.forM (topLevel entry)
  finish entry

end Scan

/-- The symbols of a program. -/
def Program.symbols (p : Program) (entry : Text) : Except Abort Symbols :=
  match (Scan.program entry p).run.run {} with
  | (.ok (), s) => .ok s.symbols
  | (.error abort, _) => .error abort

/-- Why a source has no symbols. -/
inductive AnalysisError where
  | refused (e : SyntaxError)
  | aborted (abort : Abort)
  deriving DecidableEq, Repr

/-- The symbols of a source. -/
def Text.symbols (source : Text) (entry : Text) : Except AnalysisError Symbols :=
  match source.program with
  | .error e => .error (.refused e)
  | .ok p =>
    match p.symbols entry with
    | .error abort => .error (.aborted abort)
    | .ok symbols => .ok symbols

end ProcCheck
