import ProcCheck.Text

/-!
# The shortest decimal that reads back

A finite double stands for all reals that round to it. `Shortest.ofBinary` gives a decimal with
as few digits as that interval allows, and of those the nearest to the double itself. All
arithmetic is exact, on natural numbers.
-/

namespace ProcCheck

/-- A double without its sign: `mantissa · 2 ^ exponent`. -/
structure Binary where
  mantissa : Nat
  exponent : Int
  /-- Whether the next smaller double is only half as far away as the next greater. -/
  isBoundary : Bool
  deriving DecidableEq, Repr

namespace Binary

/-- The number of fractions that the 52 low bits of a double hold. -/
def fractions : Nat := Nat.pow 2 52

/-- The fraction in the low bits of a double. -/
def fractionBits (bits : UInt64) : Nat := bits.toNat % fractions

/-- The exponent in the eleven bits above the fraction. -/
def exponentBits (bits : UInt64) : Nat := bits.toNat / fractions % 2048

/-- The parts of a finite double, given its bits. -/
def ofBits (bits : UInt64) : Binary :=
  let fraction := fractionBits bits
  match exponentBits bits with
  | 0 => ⟨fraction, -1074, false⟩
  | e + 1 => ⟨fractions + fraction, (e : Int) - 1074, fraction = 0 ∧ 0 < e⟩

end Binary

/-- The number `digits · 10 ^ exponent`. -/
structure Shortest where
  digits : Nat
  exponent : Int
  deriving DecidableEq, Repr

namespace Shortest

/-- A fraction, as numerator and denominator. -/
structure Ratio where
  num : Nat
  den : Nat

/-- `n · b ^ e` as a fraction. -/
def Ratio.scaled (n b : Nat) : Int → Ratio
  | .ofNat e => ⟨n * b.pow e, 1⟩
  | .negSucc e => ⟨n, b.pow (e + 1)⟩

/-- The exponent of the greatest power of ten that is not above a positive fraction. -/
def Ratio.log10 (r : Ratio) : Int :=
  if r.den ≤ r.num then (Nat.toDigits 10 (r.num / r.den)).length - 1
  else
    let d := (Nat.toDigits 10 (r.den / r.num)).length
    if r.den ≤ r.num * Nat.pow 10 (d - 1) then 1 - d else -d

/-- The decimals `n · 10 ^ p` next to a double, of which those count that round to it; of two
the nearer is chosen, and at equal distance the even one. -/
def onGrid? (b : Binary) (p : Int) : Option Nat :=
  -- All quantities in quarters of the last binary place, over the common denominator `unit`.
  let quarter := Ratio.scaled 1 2 (b.exponent - 2)
  let step := Ratio.scaled 1 10 p
  let scale := quarter.num * step.den
  let unit := step.num * quarter.den
  let value := 4 * b.mantissa * scale
  let low := (4 * b.mantissa - if b.isBoundary then 1 else 2) * scale
  let high := (4 * b.mantissa + 2) * scale
  let inside (n : Nat) : Bool :=
    if b.mantissa % 2 = 0 then low ≤ n * unit && n * unit ≤ high
    else low < n * unit && n * unit < high
  let below := value / unit
  match inside below, inside (below + 1) with
  | false, false => none
  | true, false => some below
  | false, true => some (below + 1)
  | true, true =>
    let down := value - below * unit
    let up := (below + 1) * unit - value
    some (if down < up ∨ (down = up ∧ below % 2 = 0) then below else below + 1)

/-- The first grid with a hit, from the coarse grid `10 ^ p` on; at most `fuel` finer ones are
tried, and after them the double's own digits are kept. -/
def search (b : Binary) : Nat → Int → Shortest
  | 0, p => ⟨(onGrid? b p).getD b.mantissa, p⟩
  | fuel + 1, p =>
    match onGrid? b p with
    | some n => if n = 0 then search b fuel (p - 1) else ⟨n, p⟩
    | none => search b fuel (p - 1)

/-- The digits without zeros at their end. -/
def trimZeros : Nat → Shortest → Shortest
  | 0, s => s
  | fuel + 1, s =>
    if s.digits % 10 = 0 ∧ s.digits ≠ 0 then trimZeros fuel ⟨s.digits / 10, s.exponent + 1⟩ else s

/-- The shortest decimal of a positive finite double: seventeen digits always suffice. -/
def ofBinary (b : Binary) : Shortest :=
  trimZeros 17 (search b 16 (Ratio.scaled b.mantissa 2 b.exponent).log10)

end Shortest

end ProcCheck
