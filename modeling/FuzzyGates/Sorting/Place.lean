/-!
# Finding a place by comparisons

Comparing two elements says whether the first precedes the second, or that the
two have no order.  The elements of a sorted list that belong before a new one
come first, so where they end can be found by halving.  Leaping searches near a
given element first, at distances that double.  Nothing here relies on the
comparisons agreeing with one another.
-/

namespace FuzzyGates.Sorting

/-- Whether one element precedes another. -/
abbrev Comparison (ε α : Type) := α → α → Except ε Bool

/-- The end of the elements that satisfy a condition, known to lie between two bounds. -/
def halve (before : Nat → Except ε Bool) (low high : Nat) : Except ε Nat :=
  if h : low < high then do
    let middle := low + (high - low) / 2
    if ← before middle then halve before (middle + 1) high
    else halve before low middle
  else return low
termination_by high - low

/-- The greatest distance tried at which a condition holds and the least one at which it does not,
or the limit instead. -/
def leap (holds : Nat → Except ε Bool) (limit reached next : Nat) : Except ε (Nat × Nat) :=
  if next < limit then do
    if ← holds next then leap holds limit next (2 * next + 1)
    else return (reached, next)
  else return (reached, limit)
termination_by limit - next

/-- The end of the elements that satisfy a condition, sought from one of them or from the first
one beyond them. -/
def placeNear (before : Nat → Except ε Bool) (size hint : Nat) : Except ε Nat := do
  if ← before hint then
    let (reached, next) ← leap (fun d => before (hint + d)) (size - hint) 0 1
    halve before (hint + reached + 1) (hint + next)
  else
    let (reached, next) ← leap (fun d => return !(← before (hint - d))) (hint + 1) 0 1
    halve before (hint + 1 - next) (hint - reached)

/-- Whether the element at a position precedes a given one. -/
def precedesAt (less : Comparison ε α) (as : List α) (b : α) (i : Nat) : Except ε Bool :=
  match as[i]? with
  | some a => less a b
  | none => .ok false

/-- Whether the element at a position does not follow a given one. -/
def staysAt (less : Comparison ε α) (as : List α) (b : α) (i : Nat) : Except ε Bool :=
  match as[i]? with
  | some a => return !(← less b a)
  | none => .ok false

end FuzzyGates.Sorting
