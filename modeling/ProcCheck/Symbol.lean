import ProcCheck.Token

/-!
# Symbols and diagnostics

What an analysis records about a program: its global variables, its functions with their
parameters, locals and control structures, and the problems found on the way.
-/

namespace ProcCheck

/-- The value that a variable starts with, where its declaration gives one. -/
inductive InitialValue where
  | number (value : Float)
  | string (value : Text)
  deriving DecidableEq

/-- A declared variable or parameter. -/
structure Variable where
  name : Text
  type : ValueType
  isGlobal : Bool
  line : Int
  initial : Option InitialValue := none
  deriving DecidableEq

/-- The kinds of control structures; a branch with an alternative is a kind of its own. -/
inductive ControlKind where
  | branch
  | branchElse
  | whileLoop
  | forLoop
  deriving DecidableEq, Repr

/-- A branch or a loop in a function. Its depth is the number of those around it. -/
structure ControlStructure where
  kind : ControlKind
  startLine : Int
  endLine : Int
  condition : Text
  depth : Nat
  deriving DecidableEq, Repr

/-- What role a function plays. -/
inductive Classification where
  | entry
  | recursive
  | normal
  deriving DecidableEq, Repr

/-- A declared function. -/
structure Function where
  name : Text
  returnType : ValueType
  line : Int
  parameters : List Variable := []
  locals : List Variable := []
  controls : List ControlStructure := []
  classification : Classification := .normal
  deriving DecidableEq

namespace Function

/-- The parameter of a name. -/
def parameter? (f : Function) (name : Text) : Option Variable :=
  f.parameters.find? (·.name = name)

/-- The local variable of a name. -/
def local? (f : Function) (name : Text) : Option Variable := f.locals.find? (·.name = name)

/-- Whether a parameter or a local variable has the name; they share one namespace. -/
def declares (f : Function) (name : Text) : Bool :=
  (f.parameter? name).isSome || (f.local? name).isSome

end Function

/-- What is wrong with a program. -/
inductive Problem where
  | duplicateGlobal (name : Text)
  | duplicateLocal (name : Text)
  | duplicateParameter (function name : Text)
  | duplicateFunction (name : Text)
  | variableOutsideFunction
  | undeclaredVariable (name : Text)
  | undeclaredTarget (name : Text)
  | undefinedFunction (name : Text)
  | wrongArgumentCount (name : Text) (expected given : Nat)
  | missingEntry (name : Text)
  /-- A problem that comes with its wording. -/
  | remark (text : Text)
  deriving DecidableEq, Repr

/-- The wording of a problem. -/
def Problem.message : Problem → Text
  | duplicateGlobal name => "Duplicate global variable declaration: " ++ name
  | duplicateLocal name => "Duplicate local variable declaration: " ++ name
  | duplicateParameter function name =>
    "Duplicate parameter name in function " ++ function ++ ": " ++ name
  | duplicateFunction name => "Duplicate function declaration: " ++ name
  | variableOutsideFunction => "Variable declaration outside of function context"
  | undeclaredVariable name => "Use of undeclared variable: " ++ name
  | undeclaredTarget name => "Assignment to undeclared variable: " ++ name
  | undefinedFunction name => "Call to undefined function: " ++ name
  | wrongArgumentCount name expected given =>
    "Function " ++ name ++ " expects " ++ Text.ofNat expected ++ " arguments but got " ++
      Text.ofNat given
  | missingEntry name => "No " ++ name ++ " function found in program"
  | remark text => text

/-- A problem and the line that it is reported at, 0 for the program as a whole. -/
structure Diagnostic where
  line : Int
  problem : Problem
  deriving DecidableEq, Repr

/-- The wording of a diagnostic. -/
def Diagnostic.message (d : Diagnostic) : Text := d.problem.message

/-- The tables that an analysis fills. -/
structure Symbols where
  globals : List Variable := []
  functions : List Function := []
  diagnostics : List Diagnostic := []
  deriving DecidableEq

namespace Symbols

/-- The global variable of a name. -/
def global? (s : Symbols) (name : Text) : Option Variable := s.globals.find? (·.name = name)

/-- The function of a name. -/
def function? (s : Symbols) (name : Text) : Option Function :=
  s.functions.find? (·.name = name)

/-- The tables with further diagnostics at the end. -/
def report (s : Symbols) (found : List Diagnostic) : Symbols :=
  { s with diagnostics := s.diagnostics ++ found }

end Symbols

end ProcCheck
