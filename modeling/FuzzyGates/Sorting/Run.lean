import FuzzyGates.Sorting.Place

/-!
# Runs

A run is a stretch of a list that is in order already, or that descends all the
way and is turned round.  A run that is too short takes in the elements after
it, each of which is put behind all that it does not precede.
-/

namespace FuzzyGates.Sorting

/-- The elements that follow a given one as long as each compares to its predecessor in a given
way. -/
def runFrom (less : Comparison ε α) (descending : Bool) : α → List α → Except ε (List α)
  | _, [] => return []
  | a, b :: rest => do
      if (← less b a) = descending then return b :: (← runFrom less descending b rest)
      else return []

/-- The elements at the front that are in order, after turning them round if they descend. -/
def firstRun (less : Comparison ε α) : List α → Except ε (List α)
  | a :: b :: rest => do
      let descending ← less b a
      let run := a :: b :: (← runFrom less descending b rest)
      return if descending then run.reverse else run
  | as => return as

/-- Put an element in its place among sorted ones. -/
def insert (less : Comparison ε α) (sorted : List α) (a : α) : Except ε (List α) := do
  let place ← halve (staysAt less sorted a) 0 sorted.length
  return sorted.insertIdx place a

/-- The run at the front, of at least a given length if there are as many elements. -/
def nextRun (less : Comparison ε α) (least : Nat) (as : List α) : Except ε (List α) := do
  let run ← firstRun less as
  ((as.drop run.length).take (least - run.length)).foldlM (insert less) run

end FuzzyGates.Sorting
