import ProcCheck.Symbol
import ProcCheck.Tree
import ProcCheck.Text.Quoted

/-!
# The state of a scan

A scan fills the tables of `Symbols` while it stands in a `Frame`: at the top level or inside
a function that is still being read. It may be cut short by an `Abort`; what it had recorded
until then stays.
-/

namespace ProcCheck

/-- Why a scan is cut short: a tree that no source spells. -/
inductive Abort where
  | unknownType (spelling : Text)
  | foreignStatement (tag : Text)
  | foreignExpression (tag : Text)
  deriving DecidableEq, Repr

/-- The wording of an abort. -/
def Abort.message : Abort → Text
  | unknownType spelling => "Unknown type " ++ spelling
  | foreignStatement tag => "Unhandled statement \x7b\"kind\":" ++ tag.quoted ++ "\x7d"
  | foreignExpression tag => "Unhandled expression \x7b\"type\":" ++ tag.quoted ++ "\x7d"

/-- Where a scan stands: in which function, if in one, and inside which control structures,
the outermost first. -/
structure Frame where
  function? : Option Function := none
  nesting : List ControlStructure := []
  deriving DecidableEq

/-- The tables and the frame. -/
structure ScanState where
  symbols : Symbols := {}
  frame : Frame := {}
  deriving DecidableEq

/-- A scanning step: it changes the state and may be cut short. -/
abbrev Scan := ExceptT Abort (StateM ScanState)

namespace ScanState

/-- Whether a variable of the name can be seen: a parameter, a local or a global. -/
def seesVariable (s : ScanState) (name : Text) : Bool :=
  s.frame.function?.any (·.declares name) || (s.symbols.global? name).isSome

/-- Whether a function of the name can be seen: one whose body has been read. -/
def seesFunction (s : ScanState) (name : Text) : Bool := (s.symbols.function? name).isSome

/-- The state with further diagnostics. -/
def report (s : ScanState) (found : List Diagnostic) : ScanState :=
  { s with symbols := s.symbols.report found }

/-- The state with a change to the function that the scan stands in. -/
def mapFunction (f : Function → Function) (s : ScanState) : ScanState :=
  { s with frame := { s.frame with function? := s.frame.function?.map f } }

end ScanState

namespace Scan

/-- Adds a diagnostic. -/
def report (line : Int) (problem : Problem) : Scan Unit :=
  modify (·.report [⟨line, problem⟩])

/-- Runs a step and puts the frame back that it started in, also if it is cut short. -/
def inFrame {α : Type} (frame : Frame) (act : Scan α) : Scan α := do
  let outer := (← get).frame
  modify ({ · with frame })
  try
    let a ← act
    modify ({ · with frame := outer })
    pure a
  catch abort =>
    modify ({ · with frame := outer })
    throw abort

/-- Runs a step; if it is cut short, takes back the nesting to where it was. -/
def keepNesting {α : Type} (act : Scan α) : Scan α := do
  let nesting := (← get).frame.nesting
  try act
  catch abort =>
    modify fun s => { s with frame := { s.frame with nesting } }
    throw abort

end Scan

end ProcCheck
