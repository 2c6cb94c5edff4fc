import FuzzyGates.Document.Basic
import FuzzyGates.Sorting.Schedule

/-!
# Keys in order

Keys are sorted when a message lists them.  The outcome of every comparison is
as it is: an undefined number precedes nothing and nothing precedes it, and two
keys without an order end the sorting.
-/

namespace FuzzyGates.Atom

/-- Whether a key precedes another, or the two keys if they have no order. -/
def ordered (a b : Atom) : Except (Atom × Atom) Bool :=
  match a.precedes? b with
  | some precedes => .ok precedes
  | none => .error (a, b)

/-- The keys in increasing order, or the first two that are compared and have no order. -/
def sort (keys : List Atom) : Except (Atom × Atom) (List Atom) := Sorting.sort ordered keys

end FuzzyGates.Atom
