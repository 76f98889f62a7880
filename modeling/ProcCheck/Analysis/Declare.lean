import ProcCheck.Analysis.Check
import ProcCheck.Analysis.Event
import ProcCheck.Analysis.Literal

/-!
# Declarations

A declaration enters its table unless its scope has the name already. Its initializer is read
first: a compound one is checked, a bare literal that fits the type becomes the initial value.
A function is registered after its body, so calls inside the body do not see it yet.
-/

namespace ProcCheck

namespace Scan

/-- The type that a text spells. -/
def resolveType (spelling : Text) : Scan ValueType :=
  match ValueType.ofSpelling? spelling with
  | some type => return type
  | none => throw (.unknownType spelling)

/-- Reads an initializer. -/
def evaluate (type : ValueType) : Option Expr → Scan (Option InitialValue)
  | none => return none
  | some e => do
    if e.text.isCompound then
      checkExpr e
      return none
    else return type.literal? e.text

/-- Declares a global variable. -/
def declareGlobal (decl : VarDecl) : Scan Unit := do
  let type ← resolveType decl.type
  if ((← get).symbols.global? decl.name).isSome then
    report decl.span.line (.duplicateGlobal decl.name)
  else
    let initial ← evaluate type decl.init
    let declared : Variable := ⟨decl.name, type, true, decl.span.line, initial⟩
    modify fun s =>
      { s with symbols := { s.symbols with globals := s.symbols.globals ++ [declared] } }

/-- Declares a local variable of the function that the scan stands in. -/
def declareLocal (decl : VarDecl) : Scan Unit := do
  match (← get).frame.function? with
  | none => report decl.span.line .variableOutsideFunction
  | some f =>
    let type ← resolveType decl.type
    if f.declares decl.name then report decl.span.line (.duplicateLocal decl.name)
    else
      let initial ← evaluate type decl.init
      let declared : Variable := ⟨decl.name, type, false, decl.span.line, initial⟩
      modify (·.mapFunction fun f => { f with locals := f.locals ++ [declared] })

/-- Declares a parameter of the function that the scan stands in. -/
def declareParam (param : Param) : Scan Unit := do
  match (← get).frame.function? with
  | none => return
  | some f =>
    let type ← resolveType param.type
    if (f.parameter? param.name).isSome then
      report param.span.line (.duplicateParameter f.name param.name)
    else
      let declared : Variable := ⟨param.name, type, false, param.span.line, none⟩
      modify (·.mapFunction fun f => { f with parameters := f.parameters ++ [declared] })

/-- Enters a control structure and records it with the function that the scan stands in. -/
def enterControl (head : ControlHead) : Scan ControlStructure := do
  let control := head.atDepth (← get).frame.nesting.length
  modify fun s => { s with frame := { s.frame with nesting := s.frame.nesting ++ [control] } }
  modify (·.mapFunction fun f => { f with controls := f.controls ++ [control] })
  return control

/-- Leaves the innermost control structure. -/
def leaveControl : Scan Unit :=
  modify fun s => { s with frame := { s.frame with nesting := s.frame.nesting.dropLast } }

/-- Lets an event happen. -/
def happen : Event → Scan Unit
  | .declare decl => declareLocal decl
  | .check e => checkExpr e
  | .enter head => discard (enterControl head)
  | .leave => leaveControl
  | .foreign tag => throw (.foreignStatement tag)

/-- Scans a statement. A scan that is cut short leaves all control structures it entered. -/
def statement (s : Stmt) : Scan Unit := keepNesting (s.events.forM happen)

/-- Whether a name is the entry name, in any case of letters. -/
def isEntryName (entry name : Text) : Bool := name.toLower = entry.toLower

/-- The role of a function with the name and the body. -/
def classify (entry name : Text) (body : Block Stmt) : Classification :=
  if isEntryName entry name then .entry
  else if (Stmt.block body).callsTo name then .recursive
  else .normal

/-- Declares a function and scans its body. The result is the function, or nothing for a
duplicate, whose parameters and body are not looked at. -/
def declareFunction (entry : Text) (decl : FunctionDecl) : Scan (Option Function) := do
  let returnType ← resolveType decl.returnType
  if ((← get).symbols.function? decl.name).isSome then
    report decl.span.line (.duplicateFunction decl.name)
    return none
  else
    let fresh : Function := { name := decl.name, returnType, line := decl.span.line }
    let f ← inFrame ⟨some fresh, []⟩ do
      decl.params.forM declareParam
      statement (.block decl.body)
      return (← get).frame.function?.getD fresh
    let f := { f with classification := classify entry decl.name decl.body }
    modify fun s =>
      { s with symbols := { s.symbols with functions := s.symbols.functions ++ [f] } }
    return some f

end Scan

end ProcCheck
