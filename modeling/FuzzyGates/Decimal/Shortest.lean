import FuzzyGates.Decimal.Binary64

/-!
# The fewest digits that read back

Every decimal in the rounding interval of a binary64 number reads back as that
number.  `shortest` looks at the decimal grids of one digit, two digits and so
on, and on each of them at the two neighbours of the number.  The first grid
with a neighbour in the interval gives the digits; of two the nearer one, and
on an exact tie the even one.  All arithmetic is on natural numbers.
-/

namespace FuzzyGates.Decimal

/-- A positive number and its rounding interval, all three as fractions over `den`. -/
structure Spread where
  low : Nat
  value : Nat
  high : Nat
  den : Nat
  /-- The ends of the interval round to the number too. -/
  closed : Bool

/-- The rounding interval reaches half a gap to either side; for an even mantissa it holds its
ends. -/
def Binary64.spread (b : Binary64) : Spread :=
  let scale := Nat.pow 2 (b.exponent - 2).toNat
  { low := (4 * b.mantissa - (if b.narrowBelow then 1 else 2)) * scale
    value := 4 * b.mantissa * scale
    high := (4 * b.mantissa + 2) * scale
    den := Nat.pow 2 (2 - b.exponent).toNat
    closed := b.mantissa % 2 = 0 }

/-- Whether the fraction `num / den` lies in the interval. -/
def Spread.admits (s : Spread) (num den : Nat) : Bool :=
  if s.closed then s.low * den ≤ num * s.den && num * s.den ≤ s.high * den
  else s.low * den < num * s.den && num * s.den < s.high * den

/-- The neighbour of the number on the grid of multiples of `10 ^ k` that reads back, if there
is one. -/
def Spread.onGrid? (s : Spread) (k : Int) : Option Nat :=
  let up := Nat.pow 10 k.toNat
  let down := Nat.pow 10 (-k).toNat
  let below := s.value * down / (up * s.den)
  let above := below + 1
  match s.admits (below * up) down, s.admits (above * up) down with
  | false, false => none
  | true, false => some below
  | false, true => some above
  | true, true =>
      let twice := 2 * (s.value * down)
      let middle := (below + above) * (up * s.den)
      if twice < middle then some below
      else if middle < twice then some above
      else if below % 2 = 0 then some below else some above

/-- The exponent of the leading decimal digit of a positive fraction above `10 ^ -400`. -/
def leadingExponent (num den : Nat) : Int :=
  if den ≤ num then ((Nat.toDigits 10 (num / den)).length : Int) - 1
  else
    match (List.range 400).find? fun j => den ≤ num * Nat.pow 10 j with
    | some j => -(j : Int)
    | none => -400

/-- Drop trailing zeros of a coefficient, counting them in the exponent. -/
def trim : Nat → Nat → Int → Nat × Int
  | 0, c, k => (c, k)
  | fuel + 1, c, k => if c % 10 = 0 then trim fuel (c / 10) (k + 1) else (c, k)

/-- Coefficient and exponent of the shortest decimal that reads back as a positive number. -/
def shortest (b : Binary64) : Nat × Int :=
  let s := b.spread
  let e := leadingExponent s.value s.den
  match (List.range 17).findSome? fun (n : Nat) =>
    (s.onGrid? (e - n)).map fun d => (d, e - (n : Int)) with
  | some (d, k) => trim 17 d k
  | none => (0, 0)

end FuzzyGates.Decimal
