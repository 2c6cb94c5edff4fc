import FuzzyGates.OrderedMap
import FuzzyGates.Failure

/-!
# Discrete fuzzy sets

A fuzzy set gives finitely many elements a degree of membership; every other
element has degree zero.  A binary operation keeps the elements of its left
set, in their order, and reads the right set's memberships.
-/

namespace FuzzyGates

/-- Elements and their degrees of membership. -/
structure FuzzySet where
  degrees : Bindings
  deriving DecidableEq

namespace FuzzySet

/-- The set of a list of elements with degrees; a repeated element keeps its place and takes
the last degree. -/
def ofList (l : List (String × Degree)) : FuzzySet := ⟨.ofList l⟩

/-- The elements with their degrees, in order. -/
def toList (s : FuzzySet) : List (String × Degree) := s.degrees.entries

/-- The number of elements. -/
def size (s : FuzzySet) : Nat := s.degrees.size

/-- Whether an element is listed, whatever its degree. -/
def contains (s : FuzzySet) (x : String) : Bool := s.degrees.contains x

/-- The degree of an element, zero unless it is listed. -/
def membership (s : FuzzySet) (x : String) : Degree := (s.degrees.get? x).getD 0.0

/-- The elements whose degree reaches a threshold. -/
def alphaCut (s : FuzzySet) (alpha : Degree) : List String :=
  (s.toList.filter fun p => alpha ≤ p.2).map Prod.fst

/-- Every degree complemented. -/
def complement (s : FuzzySet) : FuzzySet := ⟨s.degrees.mapEntries fun _ v => v.complement⟩

/-- Every degree joined with the element's degree in another set. -/
def join (c : Connective) (s t : FuzzySet) : FuzzySet :=
  ⟨s.degrees.mapEntries fun x v => c.apply v (t.membership x)⟩

@[simp] theorem keys_complement (s : FuzzySet) : s.complement.degrees.keys = s.degrees.keys := by
  simp [complement]

@[simp] theorem keys_join (c : Connective) (s t : FuzzySet) :
    (join c s t).degrees.keys = s.degrees.keys := by
  simp [join]

/-- Equality of sets: the same elements with numerically equal degrees, in any order. -/
def same (s t : FuzzySet) : Bool :=
  s.size == t.size && s.toList.all fun p =>
    match t.degrees.get? p.1 with
    | some y => p.2 == y
    | none => false

/-- A number that agrees for numerically equal degrees: the two zeros share one. -/
def degreeHash (x : Degree) : UInt64 := if x == 0.0 then 0 else x.toBits

/-- A number that agrees for equal sets, the order of elements notwithstanding. -/
def hash (s : FuzzySet) : UInt64 :=
  s.toList.foldl (fun h p => h + mixHash (Hashable.hash p.1) (degreeHash p.2)) 0

end FuzzySet

/-- The operations on fuzzy sets. -/
inductive SetOperation
  | complement
  | join (c : Connective)
  deriving DecidableEq, Repr

/-- The operation of a name. -/
def SetOperation.ofName? : String → Option SetOperation
  | "complement" => some complement
  | "union" => some (join .or)
  | "intersection" => some (join .and)
  | "add" => some (join .add)
  | "multi" => some (join .mult)
  | _ => none

/-- Perform an operation by name.  A complement pays no attention to the other set; every other
operation needs one. -/
def FuzzySet.perform (s : FuzzySet) (operation : String) (other : Option FuzzySet) :
    Except ChoiceFault FuzzySet :=
  match SetOperation.ofName? operation, other with
  | none, _ => .error (.setOperation operation)
  | some .complement, _ => .ok s.complement
  | some (.join _), none => .error (.missingSet operation)
  | some (.join c), some t => .ok (FuzzySet.join c s t)

end FuzzyGates
