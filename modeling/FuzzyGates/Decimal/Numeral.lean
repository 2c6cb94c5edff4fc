import FuzzyGates.Decimal.Reading
import FuzzyGates.Text.Quoted
import FuzzyGates.Text.Word

/-!
# Numerals as they are written by hand

A numeral may have blanks around it, a sign and single low lines between its
digits, and its digits may be those of any script.  Integers can have a base
other than ten and, if that is two, eight or sixteen, a mark for it.  Fractions
include words for what is infinite or undefined.  An integer with very many
digits is refused, unless its base is a power of two.
-/

namespace FuzzyGates.Decimal

/-- Why a text is not a numeral. -/
inductive NumeralFault
  | notInteger (base : Nat) (text : String)
  | notFraction (text : String)
  | tooManyDigits (count : Nat)
  /-- An integer has too many digits to be written. -/
  | unwritable
  deriving DecidableEq, Repr

/-- The greatest number of digits that an integer is read from or written with. -/
def digitLimit : Nat := 4300

/-- Whether an integer has few enough digits to be written. -/
def isWritable (n : Int) : Bool := n.natAbs < Nat.pow 10 digitLimit

/-- The wording of a fault; a long text is cut off. -/
def NumeralFault.message : NumeralFault → String
  | notInteger base text =>
      "invalid literal for int() with base " ++ toString base ++ ": " ++
        String.ofList ((Text.quoted text).toList.take 200)
  | notFraction text => "could not convert string to float: " ++ Text.quoted text
  | tooManyDigits count =>
      "Exceeds the limit (" ++ toString digitLimit ++ " digits) for integer string conversion: "
        ++ "value has " ++ toString count
        ++ " digits; use sys.set_int_max_str_digits() to increase the limit"
  | unwritable =>
      "Exceeds the limit (" ++ toString digitLimit ++ " digits) for integer string conversion; "
        ++ "use sys.set_int_max_str_digits() to increase the limit"

/-- The code points beyond ASCII that count as blanks. -/
def farBlanks : List Nat :=
  [0x85, 0xA0, 0x1680, 0x2000, 0x2001, 0x2002, 0x2003, 0x2004, 0x2005, 0x2006, 0x2007, 0x2008,
   0x2009, 0x200A, 0x2028, 0x2029, 0x202F, 0x205F, 0x3000]

/-- Whether a character is a blank. -/
def isBlank (c : Char) : Bool := c = ' ' || (9 ≤ c.toNat && c.toNat ≤ 13)

/-- The ASCII character that a character counts as in a numeral. -/
def inAscii (c : Char) : Char :=
  if c.toNat < 127 then c
  else if c.toNat ∈ farBlanks then ' '
  else
    match Text.decimalRanges.find? fun r => r.1 ≤ c.toNat && c.toNat ≤ r.2 with
    | some r => Char.ofNat ('0'.toNat + (c.toNat - r.1) % 10)
    | none => '?'

/-- The characters of a numeral, without the blanks around it. -/
def trimmed (s : String) : List Char :=
  let cs := (s.toList.map inAscii).dropWhile isBlank
  (cs.reverse.dropWhile isBlank).reverse

/-- The value of a digit in bases up to sixteen. -/
def digitValue? (c : Char) : Option Nat :=
  if '0' ≤ c ∧ c ≤ '9' then some (c.toNat - '0'.toNat)
  else if 'a' ≤ c ∧ c ≤ 'f' then some (c.toNat - 'a'.toNat + 10)
  else if 'A' ≤ c ∧ c ≤ 'F' then some (c.toNat - 'A'.toNat + 10)
  else none

/-- Whether a character is a digit in a base. -/
def isDigitIn (base : Nat) (c : Char) : Bool := (digitValue? c).any fun v => v < base

/-- Whether every low line stands between two characters of a kind, a given one before the text. -/
def lowLinesBetween (p : Char → Bool) : Char → List Char → Bool
  | before, [] => before ≠ '_'
  | before, c :: rest =>
      (if c = '_' then p before else before ≠ '_' || p c) && lowLinesBetween p c rest

/-- What follows the mark of a base and a low line after it, if they are there. -/
def dropBaseMark (base : Nat) : List Char → List Char
  | '0' :: m :: rest =>
      let marked := (base = 2 && (m = 'b' || m = 'B')) || (base = 8 && (m = 'o' || m = 'O')) ||
        (base = 16 && (m = 'x' || m = 'X'))
      if marked then
        match rest with
        | '_' :: more => more
        | _ => rest
      else '0' :: m :: rest
  | cs => cs

/-- The value of digits in a base. -/
def valueIn (base : Nat) (ds : List Char) : Nat :=
  ds.foldl (fun n c => base * n + (digitValue? c).getD 0) 0

/-- The integer that a numeral in a base denotes. -/
def integerOf (base : Nat) (s : String) : Except NumeralFault Int :=
  let (negative, cs) := takeSign (trimmed s)
  let body := dropBaseMark base cs
  let run := body.takeWhile fun c => isDigitIn base c || c = '_'
  let digits := run.filter (· ≠ '_')
  if run.isEmpty || !lowLinesBetween (isDigitIn base) '_' run then .error (.notInteger base s)
  else if base ∉ [2, 4, 8, 16] ∧ digitLimit < digits.length then
    .error (.tooManyDigits digits.length)
  else if run.length ≠ body.length then .error (.notInteger base s)
  else .ok (if negative then -(valueIn base digits : Int) else valueIn base digits)

/-- The number that a word stands for, in any case. -/
def wordValue? (cs : List Char) : Option Float :=
  match String.ofList (cs.map Char.toLower) with
  | "inf" | "infinity" => some (1.0 / 0.0)
  | "nan" => some (0.0 / 0.0)
  | _ => none

/-- The number that a numeral with or without a fraction denotes. -/
def fractionOf (s : String) : Except NumeralFault Float :=
  let cs := trimmed s
  let (negative, word) := takeSign cs
  let value :=
    match wordValue? word with
    | some x => some (withSign negative x)
    | none => if lowLinesBetween Char.isDigit ' ' cs then decimal? (cs.filter (· ≠ '_')) else none
  match value with
  | some x => .ok x
  | none => .error (.notFraction s)

end FuzzyGates.Decimal
