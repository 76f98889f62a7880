/-!
# Texts as sequences of 16-bit code units

Columns, lengths and cuts are counted in 16-bit units throughout: a character beyond the
basic plane counts two, and its halves can be separated. A `Text` is therefore a list of
units and not a `String`; a half that has lost its partner is a value like any other.
String literals coerce to texts, characters of the basic plane to units.
-/

namespace ProcCheck

/-- One 16-bit unit of a text. -/
abbrev CodeUnit := UInt16

/-- A text is the list of its units. -/
abbrev Text := List CodeUnit

namespace CodeUnit

/-- The unit of a character of the basic plane. -/
def ofChar (c : Char) : CodeUnit := c.toNat.toUInt16

instance : Coe Char CodeUnit := ⟨ofChar⟩

/-- The units of a code point: one in the basic plane, a high and a low half beyond it. -/
def ofCodePoint (n : Nat) : List CodeUnit :=
  if n < 0x10000 then [n.toUInt16]
  else [(0xD800 + (n - 0x10000) / 0x400).toUInt16, (0xDC00 + (n - 0x10000) % 0x400).toUInt16]

/-- The line feed, the only unit that ends a line. -/
def lineFeed : CodeUnit := 0x0A

/-- The double quote, which opens and closes a string. -/
def quote : CodeUnit := 0x22

/-- The first half of a character beyond the basic plane. -/
def isHighHalf (u : CodeUnit) : Bool := 0xD800 ≤ u && u ≤ 0xDBFF

/-- The second half of a character beyond the basic plane. -/
def isLowHalf (u : CodeUnit) : Bool := 0xDC00 ≤ u && u ≤ 0xDFFF

/-- The code point of a high and a low half. -/
def joinHalves (high low : CodeUnit) : Nat :=
  0x10000 + (high.toNat - 0xD800) * 0x400 + (low.toNat - 0xDC00)

/-- The digits `0` to `9`. -/
def isDigit (u : CodeUnit) : Bool := '0' ≤ u && u ≤ '9'

/-- The letters `a` to `z` and `A` to `Z`. -/
def isLetter (u : CodeUnit) : Bool := ('a' ≤ u && u ≤ 'z') || ('A' ≤ u && u ≤ 'Z')

/-- The units that a word starts with: letters and the underscore. -/
def isWordStart (u : CodeUnit) : Bool := u.isLetter || u == '_'

/-- The units that a word goes on with. -/
def isWordUnit (u : CodeUnit) : Bool := u.isWordStart || u.isDigit

/-- Blank units: the control characters from tab to carriage return, the space separators,
the two separators of lines and paragraphs, and the byte order mark. -/
def isBlank (u : CodeUnit) : Bool :=
  (0x09 ≤ u && u ≤ 0x0D) || u == 0x20 || u == 0xA0 || u == 0x1680 ||
  (0x2000 ≤ u && u ≤ 0x200A) || u == 0x2028 || u == 0x2029 || u == 0x202F ||
  u == 0x205F || u == 0x3000 || u == 0xFEFF

end CodeUnit

namespace Text

/-- The units of a string. -/
def ofString (s : String) : Text := s.toList.flatMap fun c => CodeUnit.ofCodePoint c.toNat

instance : Coe String Text := ⟨ofString⟩

/-- The code points of a text; a half without its partner stands for itself. -/
def codePoints : Text → List Nat
  | [] => []
  | [u] => [u.toNat]
  | u :: v :: rest =>
    if u.isHighHalf && v.isLowHalf then CodeUnit.joinHalves u v :: codePoints rest
    else u.toNat :: codePoints (v :: rest)

/-- The text of a list of code points. -/
def ofCodePoints (ns : List Nat) : Text := ns.flatMap CodeUnit.ofCodePoint

/-- The character of a code point, the replacement character for a lone half. -/
def charOfCodePoint (n : Nat) : Char :=
  if n.isValidChar then Char.ofNat n else '\uFFFD'

/-- The text as a string, in which a lone half becomes the replacement character. -/
def toString (t : Text) : String := String.ofList (t.codePoints.map charOfCodePoint)

/-- Whether `u` is the first unit of a text. -/
def startsWith (t : Text) (u : CodeUnit) : Bool := t.head? == some u

/-- Whether `u` is the last unit of a text. -/
def endsWith (t : Text) (u : CodeUnit) : Bool := t.getLast? == some u

/-- The pieces between line feeds; there is always at least one. -/
def lines (t : Text) : List Text := t.splitOn CodeUnit.lineFeed

/-- The text without the blank units at its start. -/
def trimStart (t : Text) : Text := t.dropWhile (·.isBlank)

/-- The text without the blank units at its end. -/
def trimEnd (t : Text) : Text := (t.reverse.dropWhile (·.isBlank)).reverse

/-- The text without the blank units at its start and at its end. -/
def trim (t : Text) : Text := t.trimStart.trimEnd

/-- The unit `u` repeated `n` times. -/
def repeated (u : CodeUnit) (n : Nat) : Text := List.replicate n u

/-- `n` spaces. -/
def spaces (n : Nat) : Text := repeated ' ' n

/-- The texts one after the other with `separator` between them. -/
def join (separator : Text) (ts : List Text) : Text := separator.intercalate ts

/-- The decimal digits of a natural number. -/
def ofNat (n : Nat) : Text := (Nat.toDigits 10 n).map CodeUnit.ofChar

/-- The decimal digits of an integer, after a minus sign if it is negative. -/
def ofInt : Int → Text
  | .ofNat n => ofNat n
  | .negSucc n => '-' :: ofNat (n + 1)

end Text

end ProcCheck
