import FuzzyGates.Sorting.Merge
import FuzzyGates.Sorting.Run

/-!
# Sorting

A list is cut into runs from left to right, and runs are merged on the way so
that few elements are moved often.  Between two neighbouring runs lies a cut of
the whole list; it has the depth at which repeated halving first separates
their middles.  Deep cuts are merged before shallow ones.  All comparisons are
made in a fixed order, so that their first failure is that of the whole.
-/

namespace FuzzyGates.Sorting

/-- A run in its place. -/
structure Run (α : Type) where
  start : Nat
  items : List α
  /-- The depth of the cut after it. -/
  depth : Nat

/-- The depth of the cut between a run and a following one of a given length, in a list of a given
length. -/
def cutDepth (total : Nat) (run : Run α) (next : Nat) : Nat :=
  let left := 2 * run.start + run.items.length
  let right := left + run.items.length + next
  let separates := fun k => (left <<< k) / total ≠ (right <<< k) / total
  ((List.range (total.log2 + 1)).find? separates).getD total.log2 + 1

/-- One run of two neighbouring ones. -/
def Run.append (less : Comparison ε α) (patience : Nat) (a b : Run α) :
    Except ε (Run α × Nat) := do
  let (items, patience) ← merge less patience a.items b.items
  return ({ a with items := items }, patience)

/-- Merge the last runs as long as the cut before the last one is deeper than a given one.  The
last run comes first. -/
def mergeDeeper (less : Comparison ε α) (depth patience : Nat) :
    List (Run α) → Except ε (List (Run α) × Nat)
  | b :: a :: rest => do
      if depth < a.depth then
        let (run, patience) ← a.append less patience b
        mergeDeeper less depth patience (run :: rest)
      else return (b :: a :: rest, patience)
  | runs => return (runs, patience)
termination_by runs => runs.length

/-- Merge all runs, the last of which comes first: always the last two, or the two before the last
one if that makes for runs of more equal lengths. -/
def mergeAll (less : Comparison ε α) (patience : Nat) : List (Run α) → Except ε (List α)
  | c :: b :: a :: rest => do
      if a.items.length < c.items.length then
        let (run, patience) ← a.append less patience b
        mergeAll less patience (c :: run :: rest)
      else
        let (run, patience) ← b.append less patience c
        mergeAll less patience (run :: a :: rest)
  | [b, a] => return (← a.append less patience b).1.items
  | [a] => return a.items
  | [] => return []
termination_by runs => runs.length

/-- Add a run at the end, the last run coming first. -/
def addRun (less : Comparison ε α) (total patience start : Nat) (run : List α) :
    List (Run α) → Except ε (List (Run α) × Nat)
  | [] => return ([⟨start, run, 0⟩], patience)
  | last :: rest => do
      let depth := cutDepth total last run.length
      let (runs, patience) ← mergeDeeper less depth patience (last :: rest)
      let runs := match runs with
        | last :: rest => { last with depth := depth } :: rest
        | [] => []
      return (⟨start, run, 0⟩ :: runs, patience)

/-- Cut what is left of a list into runs of at least a given length, and merge them all. -/
def sortFrom (less : Comparison ε α) (total least : Nat) (patience : Nat) (runs : List (Run α)) :
    List α → Except ε (List α)
  | [] => mergeAll less patience runs
  | a :: rest => do
      let run ← nextRun less least (a :: rest)
      let start := total - (rest.length + 1)
      let (runs, patience) ← addRun less total patience start run runs
      sortFrom less total least patience runs (rest.drop (run.length - 1))
termination_by as => as.length

/-- The least length of runs in a list of a given length: all of a list of fewer than 64, and
otherwise between 32 and 64, such that the number of runs is a power of two or just below one. -/
def leastRun (total : Nat) : Nat :=
  let runs := 1 <<< (total.log2 - 5)
  (total + runs - 1) / runs

/-- A list in increasing order, or the failure of a comparison. -/
def sort (less : Comparison ε α) (as : List α) : Except ε (List α) :=
  sortFrom less as.length (leastRun as.length) usualPatience [] as

end FuzzyGates.Sorting
