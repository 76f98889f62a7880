import ProcCheck.Text

/-!
# Numbers written in decimal

`Decimal.read?` accepts digits with an optional sign, point and exponent; `Decimal.toFloat`
is the double nearest to the number that they denote.
-/

namespace ProcCheck

namespace Text

/-- The number that a list of digits denotes. -/
def digitsValue (digits : Text) : Nat :=
  digits.foldl (fun n d => 10 * n + (d.toNat - '0'.toNat)) 0

/-- The digits at the start of a text, and what follows them. -/
def spanDigits (t : Text) : Text × Text := t.span (·.isDigit)

/-- An optional sign at the start of a text: whether it is a minus, and what follows. -/
def spanSign : Text → Bool × Text
  | [] => (false, [])
  | u :: rest =>
    if u = '-' then (true, rest) else if u = '+' then (false, rest) else (false, u :: rest)

end Text

/-- The number `± mantissa · 10 ^ exponent`. -/
structure Decimal where
  negative : Bool
  mantissa : Nat
  exponent : Int
  deriving DecidableEq, Repr

namespace Decimal

/-- The exponent that a text consists of; no text at all stands for zero. -/
def readExponent? : Text → Option Int
  | [] => some 0
  | e :: rest =>
    let (negative, digits) := Text.spanSign rest
    if (e = 'e' ∨ e = 'E') ∧ digits ≠ [] ∧ digits.all (·.isDigit) then
      let n : Int := Text.digitsValue digits
      some (if negative then -n else n)
    else none

/-- The number that a text denotes: an optional sign, digits with at most one point and at
least one digit, and an optional exponent. -/
def read? (text : Text) : Option Decimal := do
  let (negative, text) := Text.spanSign text
  let (whole, rest) := Text.spanDigits text
  let (fraction, rest) :=
    if Text.startsWith rest '.' then Text.spanDigits (rest.drop 1) else ([], rest)
  guard (whole ++ fraction ≠ [])
  let exponent ← readExponent? rest
  return ⟨negative, Text.digitsValue (whole ++ fraction), exponent - fraction.length⟩

/-- The power of ten above a number that has at least one digit. -/
def magnitude (d : Decimal) : Int := (Nat.toDigits 10 d.mantissa).length + d.exponent

/-- The nearest double. A number beyond all doubles is infinite, and one below half of the
smallest is zero; telling these apart by their magnitude keeps the powers of ten small. -/
def toFloat (d : Decimal) : Float :=
  let size : Float :=
    if d.mantissa = 0 ∨ d.magnitude < -330 then 0
    else if 330 < d.magnitude then 1 / 0
    else match d.exponent with
      | .ofNat e => Float.ofScientific d.mantissa false e
      | .negSucc e => Float.ofScientific d.mantissa true (e + 1)
  if d.negative then -size else size

end Decimal

/-- The double that a decimal text denotes; not a number if the text is none. -/
def Text.toFloat (t : Text) : Float :=
  match Decimal.read? t with
  | some d => d.toFloat
  | none => 0 / 0

end ProcCheck
