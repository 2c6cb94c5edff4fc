import FuzzyGates.Decimal.Shortest

/-!
# How the digits of a number are laid out

The digits of a number are one question, their layout another.  A `Layout`
records every decision of an output format: which exponents are written with
positional notation, how wide the others are, and the words for numbers
without digits.
-/

namespace FuzzyGates.Decimal

/-- The decisions of a format for numbers. -/
structure Layout where
  /-- The least exponent of a leading digit that is written positionally. -/
  positionalFrom : Int
  /-- The greatest exponent of a leading digit that is written positionally. -/
  positionalTo : Int
  /-- What stands between the digits and the exponent. -/
  exponentMark : Char
  /-- The least count of digits of an exponent. -/
  exponentWidth : Nat
  /-- The word for a number that is not defined. -/
  undefinedWord : String
  /-- The word for a number without bound. -/
  infiniteWord : String

namespace Layout

/-- Digits with the point after the one of exponent zero, and at least one digit on either side. -/
def positional (digits : List Char) (exponent : Int) : List Char :=
  if exponent < 0 then
    '0' :: '.' :: (List.replicate ((-exponent).toNat - 1) '0' ++ digits)
  else
    let width := exponent.toNat + 1
    let whole := digits.take width ++ List.replicate (width - digits.length) '0'
    let rest := digits.drop width
    whole ++ '.' :: (if rest.isEmpty then ['0'] else rest)

/-- Digits with the point after the first and the exponent behind them. -/
def scientific (l : Layout) (digits : List Char) (exponent : Int) : List Char :=
  let size := Nat.toDigits 10 exponent.natAbs
  let point := if digits.length ≤ 1 then digits else digits.take 1 ++ '.' :: digits.drop 1
  point ++ l.exponentMark :: (if exponent < 0 then '-' else '+') ::
    (List.replicate (l.exponentWidth - size.length) '0' ++ size)

/-- The digits of a positive number in the notation that its size calls for. -/
def magnitude (l : Layout) (coefficient : Nat) (exponent : Int) : List Char :=
  let digits := Nat.toDigits 10 coefficient
  let leading := exponent + digits.length - 1
  if l.positionalFrom ≤ leading ∧ leading ≤ l.positionalTo then positional digits leading
  else l.scientific digits leading

/-- The text of a number.  Zero keeps its sign, an undefined number has none. -/
def render (l : Layout) (x : Float) : String :=
  match Binary64.ofFloat? x with
  | some b =>
      let body := if b.mantissa = 0 then positional ['0'] 0
        else let (c, k) := shortest b; l.magnitude c k
      String.ofList (if b.negative then '-' :: body else body)
  | none =>
      if x < 0 then "-" ++ l.infiniteWord
      else if 0 < x then l.infiniteWord else l.undefinedWord

end Layout

end FuzzyGates.Decimal
