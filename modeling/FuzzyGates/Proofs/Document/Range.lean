import FuzzyGates.Document.Basic

/-!
# Numbers within the range of degrees

Every number with a fraction is a degree.  A whole number has a nearest degree unless its
magnitude rounds past the largest finite one; within that bound reading a number is total.

* `Number.InRange`, `Number.nearest` — the bound, and the degree of a number within it.
* **`degree?_eq_some_iff`** — a number has a degree exactly if it is in range, the nearest one.
* `Document.InRange` — every number among the values of a document is in range.
-/

namespace FuzzyGates

namespace Number

/-- The degree nearest to a number. -/
def nearest : Number → Degree
  | int n => Float.ofInt n
  | float x => x

/-- The number does not round past the largest finite degree. -/
def InRange : Number → Prop
  | int n => n.natAbs < Decimal.overflowBound
  | float _ => True

instance : (n : Number) → Decidable n.InRange
  | int n => inferInstanceAs (Decidable (n.natAbs < Decimal.overflowBound))
  | float _ => inferInstanceAs (Decidable True)

/-- **A number has a degree exactly if it is in range**, and then the nearest one. -/
theorem degree?_eq_some_iff {n : Number} {x : Degree} :
    n.degree? = some x ↔ n.InRange ∧ x = n.nearest := by
  cases n with
  | float y => simp [degree?, InRange, nearest, eq_comm]
  | int n =>
      show Decimal.floatOfInt? n = some x ↔ n.natAbs < Decimal.overflowBound ∧ x = Float.ofInt n
      unfold Decimal.floatOfInt?
      by_cases h : n.natAbs < Decimal.overflowBound
      · simp [h, eq_comm]
      · simp [h]

theorem degree?_eq_none_iff {n : Number} : n.degree? = none ↔ ¬n.InRange := by
  simp [Option.eq_none_iff_forall_ne_some, degree?_eq_some_iff]

theorem not_inRange_natCast {m : Nat} (h : Decimal.overflowBound ≤ m) :
    ¬(Number.int m).InRange := by
  show ¬(m : Int).natAbs < Decimal.overflowBound
  rw [Int.natAbs_natCast]
  exact Nat.not_lt.mpr h

end Number

namespace Document

/-- A document is a number exactly if it is the atom of that number. -/
theorem number?_eq_some_iff {d : Document} {n : Number} :
    d.number? = some n ↔ d = .atom n.toAtom := by
  constructor
  · intro h
    cases d with
    | atom a => cases a <;> cases h <;> rfl
    | pair _ _ | list _ | set _ | mapping _ => cases h
  · rintro rfl
    cases n <;> rfl

@[simp] theorem number?_toAtom (n : Number) : (atom n.toAtom).number? = some n :=
  number?_eq_some_iff.mpr rfl

/-- Every number among the values of a document is in range.  The keys of mappings and the
elements of sets are no values. -/
inductive InRange : Document → Prop
  | atom {a : Atom} (h : ∀ n ∈ a.number?, n.InRange) : InRange (.atom a)
  | pair {a b : Document} (ha : InRange a) (hb : InRange b) : InRange (.pair a b)
  | list {items : List Document} (h : ∀ d ∈ items, InRange d) : InRange (.list items)
  | set (elements : List Atom) : InRange (.set elements)
  | mapping {entries : List (Atom × Document)} (h : ∀ p ∈ entries, InRange p.2) :
      InRange (.mapping entries)

theorem inRange_toAtom {n : Number} : (atom n.toAtom).InRange ↔ n.InRange := by
  constructor
  · intro h
    cases h with
    | atom h => exact h n (number?_toAtom n)
  · intro h
    refine .atom fun m hm => ?_
    have hmn : some n = some m := (number?_toAtom n).symm.trans hm
    cases hmn
    exact h

theorem inRange_float (x : Degree) : (atom (.float x)).InRange := by
  refine .atom fun n hn => ?_
  cases hn
  trivial

theorem inRange_of_number?_eq_none {a : Atom} (h : a.number? = none) : (atom a).InRange :=
  .atom (by simp [h])

theorem inRange_text (s : String) : (ofText s).InRange := inRange_of_number?_eq_none rfl

theorem inRange_list {items : List Document} :
    (list items).InRange ↔ ∀ d ∈ items, d.InRange := by
  constructor
  · intro h
    cases h with
    | list h => exact h
  · exact .list

theorem inRange_mapping {entries : List (Atom × Document)} :
    (mapping entries).InRange ↔ ∀ p ∈ entries, p.2.InRange := by
  constructor
  · intro h
    cases h with
    | mapping h => exact h
  · exact .mapping

end Document

end FuzzyGates
