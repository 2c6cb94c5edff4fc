/-!
# Reading decimal numbers

A decimal is a coefficient and a power of ten.  It is rounded to the nearest
binary64 number once, from its exact value.  Exponents so far out that the
result is zero or infinite are settled without forming the power.
-/

namespace FuzzyGates.Decimal

/-- The value of a run of decimal digits. -/
def natOfDigits (ds : List Char) : Nat :=
  ds.foldl (fun n c => 10 * n + (c.toNat - '0'.toNat)) 0

/-- The binary64 number nearest to `coefficient · 10 ^ exponent`. -/
def floatOfDecimal (coefficient : Nat) (exponent : Int) : Float :=
  let size := (Nat.toDigits 10 coefficient).length
  if coefficient = 0 then 0.0
  else if 400 < exponent + size then 1.0 / 0.0
  else if exponent + size < -400 then 0.0
  else Float.ofScientific coefficient (exponent < 0) exponent.natAbs

/-- An optional sign and whether it is a minus. -/
def takeSign : List Char → Bool × List Char
  | '-' :: rest => (true, rest)
  | '+' :: rest => (false, rest)
  | cs => (false, cs)

/-- Put a sign on a number. -/
def withSign (negative : Bool) (x : Float) : Float := if negative then -x else x

/-- An exponent such as `e-05`, or nothing at all. -/
def exponent? : List Char → Option Int
  | [] => some 0
  | e :: rest =>
      let (negative, ds) := takeSign rest
      if (e = 'e' ∨ e = 'E') ∧ ds ≠ [] ∧ ds.all Char.isDigit then
        some (if negative then -(natOfDigits ds : Int) else natOfDigits ds)
      else none

/-- The number that a sign, digits, an optional fraction and an optional exponent denote. -/
def decimal? (cs : List Char) : Option Float :=
  let (negative, cs) := takeSign cs
  let whole := cs.takeWhile Char.isDigit
  let rest := cs.dropWhile Char.isDigit
  let (fraction, rest) :=
    match rest with
    | '.' :: more => (more.takeWhile Char.isDigit, more.dropWhile Char.isDigit)
    | _ => ([], rest)
  if whole.isEmpty && fraction.isEmpty then none
  else (exponent? rest).map fun e =>
    withSign negative (floatOfDecimal (natOfDigits (whole ++ fraction)) (e - fraction.length))

end FuzzyGates.Decimal
