import ProcCheck.Text

/-!
# Texts as bytes

Files hold texts in UTF-8. Writing turns a half without its partner into the replacement
character. Reading accepts any bytes: each longest beginning of a character that is not
completed, and each byte that begins none, becomes one replacement character. A byte order
mark is a character like any other.
-/

namespace ProcCheck

/-- The content of a file. -/
abbrev Bytes := List UInt8

namespace Utf8

/-- The code point that stands for what cannot be read or written. -/
def replacement : Nat := 0xFFFD

/-- The bytes of a code point; a lone half is replaced. -/
def encode (n : Nat) : Bytes :=
  let tail (n : Nat) : UInt8 := (0x80 + n % 0x40).toUInt8
  let n := if n.isValidChar then n else replacement
  if n < 0x80 then [n.toUInt8]
  else if n < 0x800 then [(0xC0 + n / 0x40).toUInt8, tail n]
  else if n < 0x10000 then [(0xE0 + n / 0x1000).toUInt8, tail (n / 0x40), tail n]
  else [(0xF0 + n / 0x40000).toUInt8, tail (n / 0x1000), tail (n / 0x40), tail n]

/-- How many bytes follow a first byte, and the range of the first of them. The ranges leave
out longer spellings than needed, halves and what lies beyond the last code point. -/
def lead? (b : UInt8) : Option (Nat × UInt8 × UInt8) :=
  if 0xC2 ≤ b ∧ b ≤ 0xDF then some (1, 0x80, 0xBF)
  else if b = 0xE0 then some (2, 0xA0, 0xBF)
  else if b = 0xED then some (2, 0x80, 0x9F)
  else if 0xE1 ≤ b ∧ b ≤ 0xEF then some (2, 0x80, 0xBF)
  else if b = 0xF0 then some (3, 0x90, 0xBF)
  else if 0xF1 ≤ b ∧ b ≤ 0xF3 then some (3, 0x80, 0xBF)
  else if b = 0xF4 then some (3, 0x80, 0x8F)
  else none

/-- A character whose beginning has been read: its value so far, how many bytes are missing,
and the range of the next one. -/
structure Pending where
  value : Nat
  missing : Nat
  low : UInt8
  high : UInt8

/-- The code point or the beginning of a character that a byte is on its own. -/
def start (b : UInt8) : Nat ⊕ Pending :=
  if b < 0x80 then .inl b.toNat
  else match lead? b with
    | none => .inl replacement
    | some (missing, low, high) => .inr ⟨b.toNat % Nat.pow 2 (6 - missing), missing, low, high⟩

/-- The code points of bytes, of which the beginning of a character may have been read. -/
def decodeFrom : Option Pending → Bytes → List Nat
  | none, [] => []
  | some _, [] => [replacement]
  | pending, b :: rest =>
    let fresh : List Nat :=
      match start b with
      | .inl n => n :: decodeFrom none rest
      | .inr p => decodeFrom (some p) rest
    match pending with
    | none => fresh
    | some p =>
      if p.low ≤ b ∧ b ≤ p.high then
        let value := p.value * 0x40 + b.toNat % 0x40
        if p.missing ≤ 1 then value :: decodeFrom none rest
        else decodeFrom (some ⟨value, p.missing - 1, 0x80, 0xBF⟩) rest
      else replacement :: fresh

end Utf8

/-- The bytes of a text. -/
def Text.toUtf8 (t : Text) : Bytes := t.codePoints.flatMap Utf8.encode

/-- The text that bytes spell. -/
def Text.ofUtf8 (bytes : Bytes) : Text := .ofCodePoints (Utf8.decodeFrom none bytes)

end ProcCheck
