import ProcCheck.Number.Decimal

/-!
# The order of keys

Keys that are array indices come first, in ascending order; the others keep their order.
-/

namespace ProcCheck.Text

/-- The index that a key is, if it is the canonical decimal text of one. -/
def index? (key : Text) : Option Nat :=
  let n := key.digitsValue
  if Text.ofNat n = key ∧ n < 0xFFFFFFFF then some n else none

/-- Things in the order of their keys. -/
def inKeyOrder {α : Type} (key : α → Text) (things : List α) : List α :=
  let indexed := things.filterMap fun x => (index? (key x)).map (·, x)
  (indexed.mergeSort fun a b => a.1 ≤ b.1).map (·.2) ++
    things.filter fun x => (index? (key x)).isNone

end ProcCheck.Text
