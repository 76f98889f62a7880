import ProcCheck.Analysis.Program

/-!
# Scanning step by step

A session drives a scan by hand: it enters and leaves functions, declares, checks and looks
up, one step after the other, and keeps a record of what every step did. Steps work on the
innermost open frame. Frames are numbered, because a control structure is left in the frame
that it was entered in, whatever has been opened or closed in between.
-/

namespace ProcCheck

/-- A step of a session. -/
inductive Step where
  /-- Opens the frame of a new function. -/
  | enter (name returnType : Text) (line : Int)
  /-- Closes the innermost function and perhaps registers it. -/
  | leave (register : Bool)
  | globalVar (decl : VarDecl)
  | localVar (decl : VarDecl)
  | function (decl : FunctionDecl)
  | validate (e : Expr)
  | statement (s : Stmt)
  | top (node : TopLevel)
  | report (line : Int) (message : Text)
  /-- Takes further steps inside a control structure. With `rethrow` they are not recorded, and
  the first that is cut short cuts the whole short. -/
  | track (head : ControlHead) (rethrow : Bool) (steps : List Step)
  | lookup (name : Text)
  | classify (name : Text) (body : Block Stmt)
  | finish

/-- What the tables say about a name. -/
structure Lookup where
  isVariable : Bool
  isFunction : Bool
  isEntry : Bool
  global? : Option Variable
  parameter? : Option Variable
  local? : Option Variable

/-- What a step answers. -/
inductive Answer where
  | nothing
  | left (closed : Bool)
  | declared (f : Option Function)
  | tracked (control : ControlStructure)
  | found (lookup : Lookup)
  | role (classification : Classification)

/-- A recorded step: its answer, the diagnostics since the record before, and the tables and
the innermost frame after it. -/
structure Entry where
  step : Step
  answer : Except Abort Answer
  diagnostics : List Diagnostic
  symbols : Symbols
  frame : Frame

/-- A frame with its number. -/
structure OpenFrame where
  number : Nat
  frame : Frame

/-- The state of a session: the tables, the open frames, how many were opened so far, and the
record. -/
structure Session where
  symbols : Symbols := {}
  current : OpenFrame := ⟨0, {}⟩
  outer : List OpenFrame := []
  opened : Nat := 0
  entries : List Entry := []
  shown : Nat := 0

namespace Session

/-- A piece of a session: it changes the state and may be cut short. -/
abbrev Play := ExceptT Abort (StateM Session)

/-- Runs a scanning step on the innermost frame. -/
def scan {α : Type} (act : Scan α) : Play α := do
  let s ← get
  let (result, after) := act.run.run ⟨s.symbols, s.current.frame⟩
  set { s with symbols := after.symbols, current := { s.current with frame := after.frame } }
  match result with
  | .ok a => return a
  | .error abort => throw abort

/-- Opens the frame of a new function. -/
def enter (name returnType : Text) (line : Int) : Play Unit := do
  let type ← scan (Scan.resolveType returnType)
  modify fun s =>
    let fresh : Frame := ⟨some { name, returnType := type, line }, []⟩
    { s with
      current := ⟨s.opened + 1, fresh⟩
      outer := s.current :: s.outer
      opened := s.opened + 1 }

/-- Closes the innermost function, unless only the top level is open. -/
def leave (register : Bool) : Play Bool := do
  let s ← get
  match s.outer with
  | [] => return false
  | next :: outer =>
    let closed := if register then s.current.frame.function?.toList else []
    set { s with
      symbols := { s.symbols with functions := s.symbols.functions ++ closed }
      current := next
      outer }
    return true

/-- Leaves a control structure in the frame of a number, if that frame is still open. -/
def leaveControl (number : Nat) : Session → Session := fun s =>
  let shorten (f : OpenFrame) : OpenFrame :=
    if f.number = number then
      { f with frame := { f.frame with nesting := f.frame.nesting.dropLast } }
    else f
  { s with current := shorten s.current, outer := s.outer.map shorten }

/-- What can be seen of a name. -/
def lookup (entry name : Text) (s : Session) : Lookup :=
  let state : ScanState := ⟨s.symbols, s.current.frame⟩
  { isVariable := state.seesVariable name
    isFunction := state.seesFunction name
    isEntry := Scan.isEntryName entry name
    global? := s.symbols.global? name
    parameter? := s.current.frame.function?.bind (·.parameter? name)
    local? := s.current.frame.function?.bind (·.local? name) }

/-- Adds a step and its answer to the record. -/
def note (step : Step) (answer : Except Abort Answer) (s : Session) : Session :=
  let entry : Entry :=
    ⟨step, answer, s.symbols.diagnostics.drop s.shown, s.symbols, s.current.frame⟩
  { s with entries := s.entries ++ [entry], shown := s.symbols.diagnostics.length }

/-- Runs a scanning step that answers nothing. -/
def quietly (act : Scan Unit) : Play Answer := do
  scan act
  return .nothing

/-- Takes a step. -/
def take (entry : Text) : Step → Play Answer
  | .enter name returnType line => do
    enter name returnType line
    return .nothing
  | .leave register => return .left (← leave register)
  | .globalVar decl => quietly (Scan.declareGlobal decl)
  | .localVar decl => quietly (Scan.declareLocal decl)
  | .function decl => return .declared (← scan (Scan.declareFunction entry decl))
  | .validate e => quietly (Scan.checkExpr e)
  | .statement s => quietly (Scan.statement s)
  | .top node => quietly (Scan.topLevel entry node)
  | .report line message => quietly (Scan.report line (.remark message))
  | .track head rethrow steps => do
    let number := (← get).current.number
    let control ← scan (Scan.enterControl head)
    try if rethrow then takeAll steps else noteAll steps
    finally modify (leaveControl number)
    return .tracked control
  | .lookup name => return .found ((← get).lookup entry name)
  | .classify name body => return .role (Scan.classify entry name body)
  | .finish => quietly (Scan.finish entry)
where
  /-- Takes steps up to the first that is cut short. -/
  takeAll : List Step → Play Unit
    | [] => return
    | step :: rest => do
      discard (take entry step)
      takeAll rest
  /-- Takes steps and records each, also those that are cut short. -/
  noteAll : List Step → Play Unit
    | [] => return
    | step :: rest => do
      let answer ← observing (take entry step)
      modify (note step answer)
      noteAll rest
  /-- Turns being cut short into an answer. -/
  observing (act : Play Answer) : Play (Except Abort Answer) := fun s =>
    let (result, s) := act.run.run s
    (.ok result, s)

/-- The session after a list of steps. -/
def play (entry : Text) (steps : List Step) : Session :=
  ((take.noteAll entry steps).run.run {}).2

end Session

end ProcCheck
