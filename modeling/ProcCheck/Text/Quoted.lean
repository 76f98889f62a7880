import ProcCheck.Text

/-!
# Quoted texts

A text between double quotes in which quotes, backslashes and control characters are escaped:
the common ones by a letter, the others by four hexadecimal digits, and so is a half that has
lost its partner. All else stands for itself.
-/

namespace ProcCheck.Text

/-- The letter that escapes a unit, if it has one. -/
def escapeLetter? (u : CodeUnit) : Option CodeUnit :=
  List.lookup u
    [(.quote, .quote), (0x5C, 0x5C), (0x08, 'b'), (0x0C, 'f'), (0x0A, 'n'), (0x0D, 'r'),
      (0x09, 't')]

/-- A unit as four hexadecimal digits. -/
def hex4 (u : CodeUnit) : Text :=
  let digit (n : Nat) : CodeUnit := .ofChar (Nat.digitChar (n % 16))
  [digit (u.toNat / 4096), digit (u.toNat / 256), digit (u.toNat / 16), digit u.toNat]

/-- How a unit on its own is written inside quotes. -/
def escape (u : CodeUnit) : Text :=
  match escapeLetter? u with
  | some letter => [0x5C, letter]
  | none => if u < 0x20 || u.isHighHalf || u.isLowHalf then 0x5C :: 'u' :: hex4 u else [u]

/-- How a text is written inside quotes. -/
def escaped : Text → Text
  | [] => []
  | [u] => escape u
  | u :: v :: rest =>
    if u.isHighHalf && v.isLowHalf then u :: v :: escaped rest
    else escape u ++ escaped (v :: rest)

/-- A text between quotes. -/
def quoted (t : Text) : Text := .quote :: escaped t ++ [.quote]

end ProcCheck.Text
