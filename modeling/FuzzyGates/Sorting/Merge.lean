import FuzzyGates.Sorting.Place

/-!
# Merging runs

Two neighbouring runs are merged from their fronts if the first is not longer
than the second, and from their ends otherwise.  A merge walks, taking one
element at a time, until one run has supplied several in a row; from then on it
leaps over as many elements of either run as go next.  How many it takes to
start leaping is the patience of the merge, which leaping that pays reduces and
walking again raises.  Equal elements keep their order.
-/

namespace FuzzyGates.Sorting

/-- From which end two runs are merged.  The next elements of both stand in front. -/
structure Direction (ε α : Type) where
  /-- Whether the next element comes from the second run. -/
  secondNext : (x y : α) → Except ε Bool
  /-- How many elements of the first run come before the next one of the second. -/
  countFirst : (y : α) → (xs : List α) → Except ε Nat
  /-- How many elements of the second run come before the next one of the first. -/
  countSecond : (x : α) → (ys : List α) → Except ε Nat
  /-- What is left of the two runs in order, once that needs no comparison. -/
  ended : (xs ys : List α) → Option (List α)

/-- From the fronts.  The last element of the first run is known to be the last of all. -/
def upward (less : Comparison ε α) : Direction ε α where
  secondNext x y := less y x
  countFirst y xs := placeNear (staysAt less xs y) xs.length 0
  countSecond x ys := placeNear (precedesAt less ys x) ys.length 0
  ended
    | [], ys => some ys
    | xs, [] => some xs
    | [x], ys => some (ys ++ [x])
    | _, _ => none

/-- From the ends.  The first element of the second run is known to be the first of all. -/
def downward (less : Comparison ε α) : Direction ε α where
  secondNext x y := return !(← less y x)
  countFirst y xs := do
    return xs.length - (← placeNear (staysAt less xs.reverse y) xs.length (xs.length - 1))
  countSecond x ys := do
    return ys.length - (← placeNear (precedesAt less ys.reverse x) ys.length (ys.length - 1))
  ended
    | [], ys => some ys
    | xs, [] => some xs
    | xs, [y] => some (xs ++ [y])
    | _, _ => none

/-- How a merge proceeds. -/
inductive Pace
  /-- By single elements, so many of which the first or the second run has supplied in a row. -/
  | walk (first second : Nat)
  /-- By single elements again. -/
  | slow
  /-- By leaps from now on. -/
  | fast
  /-- By another leap over the first run. -/
  | again
  /-- By a leap over the second run, after one of a given length over the first. -/
  | across (first : Nat)

/-- How many elements the first and the second run have supplied in a row. -/
def Pace.streaks : Pace → Nat × Nat
  | walk first second => (first, second)
  | _ => (0, 0)

/-- How a pace changes the patience. -/
def Pace.adjust (patience : Nat) : Pace → Nat
  | slow => patience + 1
  | again => max 1 (patience - 1)
  | _ => patience

/-- The length of leaps that pay, and the patience to begin with. -/
def usualPatience : Nat := 7

/-- How a merge proceeds after so many elements in a row. -/
def Pace.after (patience first second : Nat) : Pace :=
  if patience ≤ max first second then fast else walk first second

/-- Merge what is left of two runs; the patience is passed on to the next merge. -/
def mergeFrom (d : Direction ε α) (patience : Nat) (pace : Pace) (xs ys : List α) :
    Except ε (List α × Nat) :=
  match d.ended xs ys, xs, ys with
  | some rest, _, _ => return (rest, patience)
  | none, x :: xs, y :: ys => do
      let patience := pace.adjust patience
      match pace with
      | .walk _ _ | .slow =>
          let (first, second) := pace.streaks
          if ← d.secondNext x y then
            let pace := Pace.after patience 0 (second + 1)
            let (rest, patience) ← mergeFrom d patience pace (x :: xs) ys
            return (y :: rest, patience)
          else
            let pace := Pace.after patience (first + 1) 0
            let (rest, patience) ← mergeFrom d patience pace xs (y :: ys)
            return (x :: rest, patience)
      | .fast | .again =>
          let count ← d.countFirst y (x :: xs)
          let taken := (x :: xs).take count
          let left := (x :: xs).drop count
          match d.ended left (y :: ys) with
          | some rest => return (taken ++ rest, patience)
          | none =>
              let (rest, patience) ← mergeFrom d patience (.across count) left ys
              return (taken ++ y :: rest, patience)
      | .across first =>
          let count ← d.countSecond x (y :: ys)
          let taken := (y :: ys).take count
          let left := (y :: ys).drop count
          match d.ended (x :: xs) left with
          | some rest => return (taken ++ rest, patience)
          | none =>
              let pace := if usualPatience ≤ max first count then Pace.again else Pace.slow
              let (rest, patience) ← mergeFrom d patience pace xs left
              return (taken ++ x :: rest, patience)
  | none, xs, ys => return (xs ++ ys, patience)
termination_by xs.length + ys.length
decreasing_by all_goals simp +zetaDelta [wfParam] <;> omega

/-- Merge two neighbouring runs.  Elements of the first that precede all of the second stay where
they are, and so do elements of the second that follow all of the first. -/
def merge (less : Comparison ε α) (patience : Nat) (as bs : List α) :
    Except ε (List α × Nat) := do
  match bs with
  | [] => return (as, patience)
  | b :: _ =>
      let start ← placeNear (staysAt less as b) as.length 0
      let xs := as.drop start
      match xs.getLast? with
      | none => return (as ++ bs, patience)
      | some a =>
          let stop ← placeNear (precedesAt less bs a) bs.length (bs.length - 1)
          match xs, bs.take stop with
          | x :: xs, y :: ys =>
              let (merged, patience) ←
                if xs.length ≤ ys.length then do
                  let (rest, patience) ← mergeFrom (upward less) patience (.walk 0 0) (x :: xs) ys
                  pure (y :: rest, patience)
                else do
                  let xs := (x :: xs).reverse
                  let ys := (y :: ys).reverse
                  let (rest, patience) ←
                    mergeFrom (downward less) patience (.walk 0 0) xs.tail ys
                  pure ((xs.take 1 ++ rest).reverse, patience)
              return (as.take start ++ merged ++ bs.drop stop, patience)
          | _, _ => return (as ++ bs, patience)

end FuzzyGates.Sorting
