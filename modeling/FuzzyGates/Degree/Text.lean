import FuzzyGates.Degree
import FuzzyGates.Decimal.Layout

/-!
# The text of a degree

Degrees are written with the fewest digits that read back, always with a
fraction or an exponent, so that a reader can tell them from integers.
-/

namespace FuzzyGates.Degree

/-- Positional from `0.0001` up to sixteen digits before the point, exponents of two digits
beyond. -/
def layout : Decimal.Layout where
  positionalFrom := -4
  positionalTo := 15
  exponentMark := 'e'
  exponentWidth := 2
  undefinedWord := "nan"
  infiniteWord := "inf"

/-- The text of a degree. -/
def text (x : Degree) : String := layout.render x

end FuzzyGates.Degree
