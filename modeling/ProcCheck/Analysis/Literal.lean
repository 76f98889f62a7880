import ProcCheck.Symbol
import ProcCheck.Number.Decimal
import ProcCheck.Text.Lowercase

/-!
# Types and literals by their spelling

A type is recognised in any case of letters. Whether an initializer is a bare literal is
decided from its text alone: a text that holds an operator sign or an opening parenthesis is
compound, also where the sign stands inside a string.
-/

namespace ProcCheck

namespace ValueType

/-- The types with their spellings. -/
def spellings : List (Text × ValueType) :=
  [("int", int), ("float", float), ("double", double), ("string", string), ("void", void)]

/-- The type that a text spells, in any case of letters. -/
def ofSpelling? (text : Text) : Option ValueType := spellings.lookup text.toLower

/-- The name that a type is shown under. -/
def name : ValueType → Text
  | int => "Int"
  | float => "Float"
  | double => "Double"
  | string => "String"
  | void => "Void"

end ValueType

namespace Text

/-- The units that make an initializer compound. -/
def compoundSigns : List CodeUnit := ['+', '-', '*', '/', '(']

/-- Whether a text holds one of the compound signs. -/
def isCompound (t : Text) : Bool := t.any compoundSigns.contains

/-- Whether a text is a whole number: one or more digits. -/
def isWhole (t : Text) : Bool := !t.isEmpty && t.all (·.isDigit)

/-- Whether a text is an exponent without sign, or nothing at all. -/
def isPlainExponent : Text → Bool
  | [] => true
  | e :: digits => (e = 'e' || e = 'E') && isWhole digits

/-- Whether a text is a number without signs: digits on at least one side of an optional
point, and perhaps an exponent. -/
def isUnsignedNumber (t : Text) : Bool :=
  let (whole, rest) := t.spanDigits
  if rest.startsWith '.' then
    let (fraction, rest) := Text.spanDigits (rest.drop 1)
    !(whole ++ fraction).isEmpty && isPlainExponent rest
  else !whole.isEmpty && isPlainExponent rest

/-- The text without the quotes at its start and at its end. -/
def trimQuotes (t : Text) : Text :=
  let isQuote (u : CodeUnit) : Bool := u = .quote
  ((t.dropWhile isQuote).reverse.dropWhile isQuote).reverse

end Text

namespace ValueType

/-- The greatest value of an `int`. -/
def maxInt : Nat := 2147483647

/-- The value of a bare literal of a type; none if the text is no such literal. -/
def literal? : ValueType → Text → Option InitialValue
  | int, t =>
    if t.isWhole ∧ t.digitsValue ≤ maxInt then some (.number t.toFloat) else none
  | float, t | double, t => if t.isUnsignedNumber then some (.number t.toFloat) else none
  | string, t =>
    if t.startsWith .quote ∧ t.endsWith .quote then some (.string t.trimQuotes) else none
  | void, _ => none

/-- The wording for a text that is no literal of a type. -/
def invalidLiteral (type : ValueType) (text : Text) : Text :=
  "Invalid value for type " ++ type.name ++ ": " ++ text

end ValueType

end ProcCheck
