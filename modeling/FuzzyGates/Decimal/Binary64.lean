/-!
# The exact value of a binary64 number

A finite number is read off its bits as `± mantissa · 2 ^ exponent`.  The
largest finite number bounds which integers have a binary64 neighbour, and
integers are compared with numbers exactly, without rounding either.
-/

namespace FuzzyGates.Decimal

/-- A finite binary64 number `± mantissa · 2 ^ exponent`. -/
structure Binary64 where
  negative : Bool
  mantissa : Nat
  exponent : Int
  /-- The gap below the number is half the gap above it. -/
  narrowBelow : Bool
  deriving DecidableEq, Repr

/-- The parts of a number that is neither infinite nor undefined. -/
def Binary64.ofFloat? (x : Float) : Option Binary64 :=
  let bits : Nat := x.toBits.toNat
  let negative := decide (Nat.pow 2 63 ≤ bits)
  let biased : Nat := bits / Nat.pow 2 52 % 2048
  let fraction : Nat := bits % Nat.pow 2 52
  if biased = 2047 then none
  else if biased = 0 then some ⟨negative, fraction, -1074, false⟩
  else some ⟨negative, Nat.pow 2 52 + fraction, (biased : Int) - 1075,
    decide (fraction = 0 ∧ 1 < biased)⟩

/-- Whether the number has no fraction. -/
def Binary64.isWhole (b : Binary64) : Bool :=
  0 ≤ b.exponent || b.mantissa % Nat.pow 2 (-b.exponent).toNat = 0

/-- The signed mantissa. -/
def Binary64.signed (b : Binary64) : Int :=
  if b.negative then -(b.mantissa : Int) else b.mantissa

/-- The least magnitude that rounds past the largest finite number. -/
def overflowBound : Nat := Nat.pow 2 1024 - Nat.pow 2 970

/-- The number nearest to an integer, ties to the even mantissa, unless the integer is too large. -/
def floatOfInt? (n : Int) : Option Float :=
  if n.natAbs < overflowBound then some (Float.ofInt n) else none

/-- The order of an integer and a number, exact; an undefined number has none. -/
def compareInt (n : Int) (x : Float) : Option Ordering :=
  match Binary64.ofFloat? x with
  | some b =>
      if 0 ≤ b.exponent then some (compare n (b.signed * Nat.pow 2 b.exponent.toNat))
      else some (compare (n * Nat.pow 2 (-b.exponent).toNat) b.signed)
  | none => if x < 0 then some .gt else if 0 < x then some .lt else none

end FuzzyGates.Decimal
