import ProcCheck.Text

/-!
# Numbers in bases up to sixteen

Digits above nine are letters, in either case.
-/

namespace ProcCheck

/-- The value of a digit in bases up to sixteen. -/
def CodeUnit.digitValue (u : CodeUnit) : Nat :=
  if u.isDigit then u.toNat - '0'.toNat
  else if 'a' ≤ u then u.toNat - 'a'.toNat + 10
  else u.toNat - 'A'.toNat + 10

/-- The digits of a base. -/
def CodeUnit.isDigitOf (base : Nat) (u : CodeUnit) : Bool :=
  (u.isDigit || ('a' ≤ u && u ≤ 'f') || ('A' ≤ u && u ≤ 'F')) && u.digitValue < base

/-- The number of one or more digits of a base. -/
def Text.natOf? (base : Nat) (digits : Text) : Option Nat :=
  if !digits.isEmpty && digits.all (CodeUnit.isDigitOf base) then
    some (digits.foldl (fun n d => base * n + d.digitValue) 0)
  else none

end ProcCheck
