import ProcCheck.Yaml.Cursor
import ProcCheck.Number.Base

/-!
# What a plain scalar denotes

A scalar without quotes is null, a truth value, a number or a date if it is written like one, and
a string otherwise. What is written like a number beyond all doubles is a string as well.
-/

namespace ProcCheck.Yaml

/-- The spellings of null. -/
def nullSpellings : List Text := ["", "~", "null", "Null", "NULL"]

/-- The spellings of the truth values. -/
def boolSpellings : List (Text × Bool) :=
  [("true", true), ("True", true), ("TRUE", true), ("false", false), ("False", false),
    ("FALSE", false)]

/-- The base that the start of a number tells, and its digits. -/
def splitBase : Text → Nat × Text
  | zero :: mark :: digits =>
    if zero = '0' ∧ mark = 'x' then (16, digits)
    else if zero = '0' ∧ mark = 'o' then (8, digits)
    else if zero = '0' ∧ mark = 'b' then (2, digits)
    else (10, zero :: mark :: digits)
  | text => (10, text)

/-- A whole number: an optional sign and digits, whose base may be marked. -/
def integer? (text : Text) : Option Decimal := do
  let (negative, rest) := text.spanSign
  let (base, digits) := splitBase rest
  let n ← Text.natOf? base digits
  return ⟨negative, n, 0⟩

/-- The spellings of infinity. -/
def infinitySpellings : List Text := [".inf", ".Inf", ".INF"]

/-- The spellings of the undefined number. -/
def undefinedSpellings : List Text := [".nan", ".NaN", ".NAN"]

/-- A number with a point or an exponent. One that starts with its point has no sign. -/
def decimal? (text : Text) : Option Decimal :=
  if text.spanSign.2.startsWith '.' && !(text.startsWith '.') then none else Decimal.read? text

/-- The numbers that are no decimals: the infinities and the undefined one. -/
def special? (text : Text) : Option Float :=
  let (negative, rest) := text.spanSign
  if infinitySpellings.contains rest then some (if negative then -1 / 0 else 1 / 0)
  else if undefinedSpellings.contains text then some (0 / 0)
  else none

/-- The number that a scalar is written like, unless it is beyond all doubles. -/
def number? (text : Text) : Option Float :=
  (((integer? text <|> decimal? text).map Decimal.toFloat).filter Number.isFinite) <|> special? text

/-! ## Dates -/

/-- What follows the digits at the start of a text, of which there are at least `least`; of more
than `most` the others follow. -/
def pastDigits? (least most : Nat) (t : Text) : Option Text :=
  let n := min most (t.takeWhile (·.isDigit)).length
  if least ≤ n then some (t.drop n) else none

/-- What follows a unit at the start of a text. -/
def pastUnit? (u : CodeUnit) (t : Text) : Option Text :=
  if t.startsWith u then some (t.drop 1) else none

/-- What follows a day: a year, a month and a day of at least `least` digits each. -/
def pastDay? (least : Nat) (t : Text) : Option Text := do
  let month ← pastUnit? '-' (← pastDigits? 4 4 t)
  let day ← pastUnit? '-' (← pastDigits? least 2 month)
  pastDigits? least 2 day

/-- What follows a time of day: hours, minutes and seconds, which may have a fraction. -/
def pastTime? (t : Text) : Option Text := do
  let minutes ← pastUnit? ':' (← pastDigits? 1 2 t)
  let seconds ← pastUnit? ':' (← pastDigits? 2 2 minutes)
  let rest ← pastDigits? 2 2 seconds
  return if rest.startsWith '.' then (rest.drop 1).dropWhile (·.isDigit) else rest

/-- Whether a text is a time zone or nothing: hours and perhaps minutes behind a sign, or `Z`. -/
def isZone (t : Text) : Bool :=
  let zone : Text := t.dropWhile isSpace
  let offset : Option Text := do
    let rest ← pastDigits? 1 2 (zone.drop 1)
    if rest.isEmpty then return rest else pastDigits? 2 2 (← pastUnit? ':' rest)
  t.isEmpty || zone = "Z" || (zone.startsWith '+' || zone.startsWith '-') && offset = some []

/-- Whether a text is a day, or a day and a time of day with a blank or a letter between them. -/
def isDate (t : Text) : Bool :=
  pastDay? 2 t = some [] || (do
    let rest ← pastDay? 1 t
    let time := if rest.startsWith 'T' || rest.startsWith 't' then rest.drop 1
      else rest.dropWhile isSpace
    guard (time ≠ rest)
    return isZone (← pastTime? time)).getD false

/-- The value of a plain scalar. -/
def Value.ofPlain (text : Text) : Value :=
  if nullSpellings.contains text then .null
  else match boolSpellings.lookup text with
    | some b => .bool b
    | none =>
      match number? text with
      | some x => .number x
      | none => if isDate text then .mapping [] else .string text

end ProcCheck.Yaml
