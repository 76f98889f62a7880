import ProcCheck.Number.Shortest

/-!
# How numbers are shown

Numbers are written with the shortest digits that read back: positionally from `10 ^ -6`
up to below `10 ^ 21`, in scientific notation outside, and without a point where none is
needed. Zero has no sign.
-/

namespace ProcCheck

namespace Number

/-- The bounds of positional notation, as counts of digits before the point. -/
structure Layout where
  greatest : Int
  least : Int

/-- Up to 21 digits stand before the point, and up to 5 zeros behind it. -/
def layout : Layout := ⟨21, -5⟩

/-- Digits `ds` whose point stands after the first `point` of them. -/
def positional (ds : Text) (point : Int) : Text :=
  if point ≤ 0 then "0." ++ Text.repeated '0' (-point).toNat ++ ds
  else if ds.length ≤ point then ds ++ Text.repeated '0' (point - ds.length).toNat
  else ds.take point.toNat ++ "." ++ ds.drop point.toNat

/-- Digits `ds` with one digit before the point, and the exponent with its sign. -/
def scientific (ds : Text) (exponent : Int) : Text :=
  let fraction : Text := if ds.length ≤ 1 then [] else "." ++ ds.drop 1
  let sign : Text := if exponent < 0 then "-" else "+"
  ds.take 1 ++ fraction ++ "e" ++ sign ++ Text.ofNat exponent.natAbs

/-- The text of a positive decimal. -/
def shortestText (s : Shortest) : Text :=
  let ds := Text.ofNat s.digits
  let point := s.exponent + ds.length
  if layout.least ≤ point ∧ point ≤ layout.greatest then positional ds point
  else scientific ds (point - 1)

/-- Whether a number is neither infinite nor undefined. -/
def isFinite (x : Float) : Bool := Binary.exponentBits x.toBits ≠ 2047

/-- The text of a number. -/
def text (x : Float) : Text :=
  let bits := x.toBits
  let sign : Text := if bits < 0x8000000000000000 then [] else "-"
  if !isFinite x then if Binary.fractionBits bits ≠ 0 then "NaN" else sign ++ "Infinity"
  else if (Binary.ofBits bits).mantissa = 0 then "0"
  else sign ++ shortestText (.ofBinary (.ofBits bits))

end Number

end ProcCheck
