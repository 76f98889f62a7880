import ProcCheck.Report.Style
import ProcCheck.Analysis.Literal
import ProcCheck.Number.Notation
import ProcCheck.Text.Quoted

/-!
# Tables of symbols

The symbols of a program, one line for each variable, function and control structure.
-/

namespace ProcCheck

/-- The text of an initial value: a number in its shortest form, a string in quotes. -/
def InitialValue.text : InitialValue → Text
  | number x => Number.text x
  | string t => t.quoted

/-- The name that a kind of control structure is shown under. -/
def ControlKind.name : ControlKind → Text
  | branch => "If"
  | branchElse => "IfElse"
  | whileLoop => "While"
  | forLoop => "For"

/-- The name that a role is shown under. -/
def Classification.name : Classification → Text
  | entry => "Entry"
  | recursive => "Recursive"
  | normal => "Normal"

namespace Variable

/-- A name and its type. -/
def signature (v : Variable) : Text := v.name ++ ": " ++ v.type.name

/-- A name, its type and its initial value. -/
def row (v : Variable) : Text :=
  match v.initial with
  | none => v.signature
  | some value => v.signature ++ " = " ++ value.text

end Variable

/-- A control structure, indented by its depth. -/
def ControlStructure.row (c : ControlStructure) : Text :=
  "    " ++ Text.spaces (2 * c.depth) ++ c.kind.name ++ " (" ++ c.condition ++ ") lines " ++
    Text.ofInt c.startLine ++ "-" ++ Text.ofInt c.endLine

namespace Function

/-- A function with its parameters, its type and its role. -/
def heading (f : Function) (styling : Styling) : Text :=
  "  " ++ f.name ++ "(" ++ Text.join ", " (f.parameters.map Variable.signature) ++ "): " ++
    f.returnType.name ++ " [" ++ f.classification.name ++ "] " ++
    styling.apply .gray ("(line " ++ Text.ofInt f.line ++ ")")

/-- A function, its local variables and its control structures. -/
def rows (f : Function) (styling : Styling) : List Text :=
  f.heading styling :: (f.locals.map fun v => "    local " ++ v.row) ++
    f.controls.map ControlStructure.row

end Function

/-- A heading and its lines, or the note that there are none. -/
def listing (styling : Styling) (heading : Text) (rows : List Text) : List Text :=
  styling.apply .bold heading :: if rows.isEmpty then ["  (none)"] else rows

/-- The table of all symbols. -/
def Symbols.table (s : Symbols) (styling : Styling) : List Text :=
  listing styling "Globals:" (s.globals.map fun v => "  " ++ v.row) ++
    listing styling "Functions:" (s.functions.flatMap (·.rows styling))

end ProcCheck
