import ProcCheck.Analysis.Literal
import ProcCheck.Report.Table

/-!
# Symbols as JSON

Values are written over several lines, each nesting indented by two spaces; what is empty
stays on one line. Fields keep their order, and a number that is not finite is null.
-/

namespace ProcCheck

/-- A value to be written. -/
inductive Json where
  | null
  | bool (b : Bool)
  | int (n : Int)
  | number (x : Float)
  | string (t : Text)
  | array (items : List Json)
  | object (fields : List (Text × Json))

namespace Json

/-- Items between brackets, one to a line; `depth` is the nesting around them. -/
def enclose (opening closing : Text) (depth : Nat) (items : List Text) : Text :=
  if items.isEmpty then opening ++ closing
  else
    let inner := .lineFeed :: Text.spaces (2 * depth + 2)
    opening ++ inner ++ Text.join ("," ++ inner) items ++
      (.lineFeed :: Text.spaces (2 * depth)) ++ closing

mutual

/-- The text of a value inside `depth` others. -/
def textAt (depth : Nat) : Json → Text
  | null => "null"
  | bool b => if b then "true" else "false"
  | int n => Text.ofInt n
  | number x => if Number.isFinite x then Number.text x else "null"
  | string t => t.quoted
  | array items => enclose "[" "]" depth (itemTexts (depth + 1) items)
  | object fields => enclose "\x7b" "\x7d" depth (fieldTexts (depth + 1) fields)

/-- The texts of items. -/
def itemTexts (depth : Nat) : List Json → List Text
  | [] => []
  | item :: rest => textAt depth item :: itemTexts depth rest

/-- The texts of fields with their names. -/
def fieldTexts (depth : Nat) : List (Text × Json) → List Text
  | [] => []
  | (name, value) :: rest =>
    (name.quoted ++ ": " ++ textAt depth value) :: fieldTexts depth rest

end

/-- The text of a value. -/
def text (j : Json) : Text := textAt 0 j

end Json

/-- An initial value as JSON. -/
def InitialValue.json : InitialValue → Json
  | number x => .number x
  | string t => .string t

/-- A variable as JSON; one without an initial value has no such field. -/
def Variable.json (v : Variable) : Json :=
  let fields : List (Text × Json) :=
    [("name", .string v.name), ("type", .string v.type.name), ("isGlobal", .bool v.isGlobal),
      ("declarationLine", .int v.line)]
  let initial : List (Text × Json) := v.initial.toList.map fun x => ("initialValue", x.json)
  .object (fields ++ initial)

/-- A control structure as JSON. -/
def ControlStructure.json (c : ControlStructure) : Json :=
  .object [("kind", .string c.kind.name), ("condition", .string c.condition),
    ("startLine", .int c.startLine), ("endLine", .int c.endLine), ("depth", .int c.depth)]

/-- A function as JSON. -/
def Function.json (f : Function) : Json :=
  .object [("name", .string f.name), ("returnType", .string f.returnType.name),
    ("declarationLine", .int f.line), ("parameters", .array (f.parameters.map Variable.json)),
    ("locals", .array (f.locals.map Variable.json)),
    ("controlStructures", .array (f.controls.map ControlStructure.json)),
    ("classification", .string f.classification.name)]

/-- A diagnostic as JSON. -/
def Diagnostic.json (d : Diagnostic) : Json :=
  .object [("kind", .string "semantic"), ("line", .int d.line), ("message", .string d.message)]

/-- The fields of the symbols of a program. -/
def Symbols.fields (s : Symbols) : List (Text × Json) :=
  [("globals", .array (s.globals.map Variable.json)),
    ("functions", .array (s.functions.map Function.json)),
    ("diagnostics", .array (s.diagnostics.map Diagnostic.json))]

end ProcCheck
