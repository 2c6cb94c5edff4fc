/-!
# Sets of characters given by ranges

A property of characters is a list of ranges of code points in increasing
order.
-/

namespace FuzzyGates.Text

/-- Whether a character lies in one of the ranges, which stand in increasing order. -/
def inRanges (ranges : List (Nat × Nat)) (c : Char) : Bool :=
  match ranges.find? fun r => c.toNat ≤ r.2 with
  | some r => r.1 ≤ c.toNat
  | none => false

end FuzzyGates.Text
