/-!
# Degrees of truth and the operators on them

A degree is a binary64 number.  The unit interval is where degrees are meant
to live, but no operator checks or clamps its arguments: only `boundedSum`
saturates, because its formula does.  `meet` and `join` keep their first
argument unless the second is strictly beyond it, which settles what they do
with signed zeros and with numbers that are not comparable.
-/

namespace FuzzyGates

/-- A degree of truth. -/
abbrev Degree := Float

namespace Degree

/-- The second degree if it is strictly below the first, else the first. -/
def meet (a b : Degree) : Degree := if b < a then b else a

/-- The second degree if it is strictly above the first, else the first. -/
def join (a b : Degree) : Degree := if a < b then b else a

/-- The sum, cut off at one. -/
def boundedSum (a b : Degree) : Degree := meet 1.0 (a + b)

/-- The product. -/
def product (a b : Degree) : Degree := a * b

/-- The distance to one. -/
def complement (a : Degree) : Degree := 1.0 - a

/-- The distance between two degrees. -/
def difference (a b : Degree) : Degree := join a b - meet a b

/-- The degree itself where it reaches the threshold, and zero below it. -/
def cut (a threshold : Degree) : Degree := if threshold ≤ a then a else 0.0

end Degree

/-- The operators that join two degrees. -/
inductive Connective
  | add | mult | and | or | xor
  deriving DecidableEq, Repr

namespace Connective

/-- The degree that a connective makes of two. -/
def apply : Connective → Degree → Degree → Degree
  | add => Degree.boundedSum
  | mult => Degree.product
  | and => Degree.meet
  | or => Degree.join
  | xor => Degree.difference

/-- The name of a connective in serialized logic. -/
def tag : Connective → String
  | add => "add"
  | mult => "mult"
  | and => "and"
  | or => "or"
  | xor => "xor"

/-- The sign of a connective in infix text. -/
def symbol : Connective → String
  | add => "+"
  | mult => "*"
  | and => "&"
  | or => "|"
  | xor => "^"

end Connective

/-- Everything that can be done to one or two degrees. -/
inductive Operator
  | join (c : Connective)
  | complement
  | alphaCut
  deriving DecidableEq, Repr

namespace Operator

/-- All operators, connectives first. -/
def all : List Operator :=
  [.join .add, .join .mult, .complement, .join .and, .join .or, .join .xor, .alphaCut]

/-- The name of an operator. -/
def tag : Operator → String
  | join c => c.tag
  | complement => "complement"
  | alphaCut => "alpha_cut"

/-- How many degrees an operator takes. -/
def arity : Operator → Nat
  | complement => 1
  | _ => 2

/-- The operator of a name. -/
def ofTag? (name : String) : Option Operator := all.find? fun o => o.tag = name

/-- The result of an operator on as many degrees as it takes. -/
def result? : Operator → List Degree → Option Degree
  | join c, [a, b] => some (c.apply a b)
  | complement, [a] => some a.complement
  | alphaCut, [a, t] => some (a.cut t)
  | _, _ => none

end Operator

end FuzzyGates
