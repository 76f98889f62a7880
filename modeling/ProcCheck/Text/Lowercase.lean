import ProcCheck.Text
import ProcCheck.Text.CaseTables

/-!
# Lower-casing

Each code point goes to its lower-case partner, with two exceptions: the capital I with a dot
keeps its dot as a mark of its own, and the capital sigma becomes the final sigma where it
ends a word, that is, where a cased letter comes before it and none comes after it.
-/

namespace ProcCheck

namespace CaseTables

/-- Whether one of the ranges holds `n`. -/
def inRanges (ranges : List (Nat × Nat)) (n : Nat) : Bool :=
  ranges.any fun r => r.1 ≤ n && n ≤ r.2

/-- The lower-case partner of a code point, itself if it has none. -/
def partner (n : Nat) : Nat :=
  match lowercase.find? fun r => r.first ≤ n && n ≤ r.last && (n - r.first) % r.step == 0 with
  | some r => (n + r.shift).toNat
  | none => n

/-- Whether the first of these code points that is not skipped is a cased letter. -/
def casedLetterFirst : List Nat → Bool
  | [] => false
  | n :: rest =>
    if inRanges caseIgnorable n then casedLetterFirst rest else inRanges cased n

/-- The lower-case form of `n`, which stands between the code points `before` (the nearest
first) and `after`. -/
def lowerBetween (before : List Nat) (n : Nat) (after : List Nat) : List Nat :=
  if n = 0x130 then [0x69, 0x307]
  else if n = 0x3A3 ∧ casedLetterFirst before ∧ ¬ casedLetterFirst after then [0x3C2]
  else [partner n]

/-- The lower-case form of code points that come after those in `before`. -/
def lowerAfter (before : List Nat) : List Nat → List Nat
  | [] => []
  | n :: after => lowerBetween before n after ++ lowerAfter (n :: before) after

end CaseTables

/-- The lower-case form of a text. -/
def Text.toLower (t : Text) : Text := .ofCodePoints (CaseTables.lowerAfter [] t.codePoints)

end ProcCheck
