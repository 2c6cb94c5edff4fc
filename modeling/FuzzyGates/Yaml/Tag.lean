import FuzzyGates.Yaml.Cursor
import FuzzyGates.Decimal.Numeral

/-!
# Tags

A tag says what a node is.  A plain scalar without one has the tag of the first
kind of value whose written form it has, or that of a text.  Numbers may
contain low lines.  Whole numbers are decimal, or binary, octal and hexadecimal
after `0b`, `0` and `0x`; decimal ones may consist of parts to base sixty.  A
number with a fraction has a point, and the sign of its exponent is never left
out.
-/

namespace FuzzyGates.Yaml

/-- What a node is. -/
inductive Tag
  | null
  | truth
  | integer
  | fraction
  | binary
  | timestamp
  | text
  | list
  | mapping
  | set
  | pairs
  /-- A key whose value holds entries for the mapping that it stands in. -/
  | merge
  /-- A key whose value stands for the mapping where a scalar is needed. -/
  | main
  /-- Nothing that a document can hold. -/
  | foreign
  deriving DecidableEq, Repr

namespace Tag

/-- What the tags of this language begin with. -/
def root : String := "tag:yaml.org,2002:"

/-- The tags by what follows the common beginning. -/
def names : List (String × Tag) :=
  [("null", null), ("bool", truth), ("int", integer), ("float", fraction), ("binary", binary),
   ("timestamp", timestamp), ("str", text), ("seq", list), ("map", mapping), ("set", set),
   ("omap", pairs), ("pairs", pairs), ("merge", merge), ("value", main)]

/-- The tag of a full name. -/
def ofName (name : String) : Tag :=
  match names.find? fun p => root ++ p.1 = name with
  | some p => p.2
  | none => foreign

/-- Whether a document of this kind is made of others. -/
def isCollection : Tag → Bool
  | list | mapping | set | pairs => true
  | _ => false

end Tag

/-! ### Written forms -/

/-- Whether a text consists of one or more characters of a kind or low lines. -/
def runOf (p : Char → Bool) (cs : List Char) : Bool :=
  !cs.isEmpty && cs.all fun c => p c || c = '_'

/-- Whether a text is a character of some kind followed by digits and low lines. -/
def startsAndRuns (first : Char → Bool) : List Char → Bool
  | c :: rest => first c && rest.all fun c => c.isDigit || c = '_'
  | [] => false

/-- The characters between colons. -/
def parts (cs : List Char) : List (List Char) :=
  cs.foldr (fun c acc =>
    match acc with
    | [] => [[c]]
    | p :: rest => if c = ':' then [] :: p :: rest else (c :: p) :: rest) [[]]

/-- Whether a part stands for a number below sixty. -/
def isSixtieth : List Char → Bool
  | [c] => c.isDigit
  | [b, c] => '0' ≤ b && b ≤ '5' && c.isDigit
  | _ => false

/-- Whether a text has parts to base sixty, of which the first begins with a character of some
kind. -/
def inSixtieths (first : Char → Bool) (cs : List Char) : Bool :=
  match parts cs with
  | p :: q :: rest => startsAndRuns first p && (q :: rest).all isSixtieth
  | _ => false

/-- Whether a text is a whole number without a sign. -/
def isNatural : List Char → Bool
  | '0' :: 'b' :: ds => runOf (fun c => c = '0' || c = '1') ds
  | '0' :: 'x' :: ds => runOf (Decimal.isDigitIn 16) ds
  | ['0'] => true
  | '0' :: ds => runOf (fun c => '0' ≤ c && c ≤ '7') ds
  | cs =>
      let first := fun c : Char => '1' ≤ c && c ≤ '9'
      startsAndRuns first cs || inSixtieths first cs

/-- Whether a text is a whole number. -/
def isInteger (cs : List Char) : Bool := isNatural (Decimal.takeSign cs).2

/-- Whether a text is an exponent with its sign, or nothing. -/
def isExponent : List Char → Bool
  | [] => true
  | e :: s :: ds =>
      (e = 'e' || e = 'E') && (s = '+' || s = '-') && !ds.isEmpty && ds.all Char.isDigit
  | _ => false

/-- Whether a text is a number with a fraction. -/
def isFraction (cs : List Char) : Bool :=
  let body := (Decimal.takeSign cs).2
  let before := body.takeWhile (· ≠ '.')
  match body.dropWhile (· ≠ '.') with
  | '.' :: after =>
      let rest := after.dropWhile fun c => c.isDigit || c = '_'
      if before.isEmpty then
        String.ofList after ∈ ["inf", "Inf", "INF"] ||
          (body.length = cs.length &&
            (String.ofList after ∈ ["nan", "NaN", "NAN"] ||
              (startsAndRuns Char.isDigit (after.take (after.length - rest.length)) &&
                isExponent rest)))
      else if startsAndRuns Char.isDigit before then isExponent rest
      else inSixtieths Char.isDigit before && rest.isEmpty
  | _ => false

/-- The plain scalars that mean null. -/
def nullWords : List String := ["~", "null", "Null", "NULL"]

/-- The plain scalars that are truth values. -/
def truthWords : List String :=
  ["yes", "Yes", "YES", "no", "No", "NO", "true", "True", "TRUE", "false", "False", "FALSE",
   "on", "On", "ON", "off", "Off", "OFF"]

/-! ### Timestamps -/

/-- The numbers in a timestamp. -/
structure TimeOfDay where
  hour : Nat
  minute : Nat
  second : Nat
  fraction : List Char
  /-- Whether an offset is given, and whether it is negative. -/
  offset : Option (Bool × Nat × Nat)

/-- One or two digits. -/
def shortNumber? : List Char → Option (List Char × List Char)
  | a :: b :: rest =>
      if a.isDigit then if b.isDigit then some ([a, b], rest) else some ([a], b :: rest) else none
  | [a] => if a.isDigit then some ([a], []) else none
  | [] => none

/-- Two digits after a colon. -/
def sixtieth? : List Char → Option (List Char × List Char)
  | ':' :: a :: b :: rest => if a.isDigit && b.isDigit then some ([a, b], rest) else none
  | _ => none

/-- An offset up to the end: a `Z`, or a sign, hours and perhaps minutes. -/
def zone? (cs : List Char) : Option (Bool × Nat × Nat) :=
  match cs with
  | ['Z'] => some (false, 0, 0)
  | s :: rest => do
      if s ≠ '+' ∧ s ≠ '-' then failure
      let (hours, rest) ← shortNumber? rest
      let minutes ← if rest.isEmpty then some [] else
        (sixtieth? rest).bind fun (ds, rest) => if rest.isEmpty then some ds else none
      return (s = '-', Decimal.natOfDigits hours, Decimal.natOfDigits minutes)
  | [] => none

/-- A time of day up to the end. -/
def timeOfDay? (cs : List Char) : Option TimeOfDay := do
  let (hour, cs) ← shortNumber? cs
  let (minute, cs) ← sixtieth? cs
  let (second, cs) ← sixtieth? cs
  let (fraction, cs) := match cs with
    | '.' :: rest => (rest.takeWhile Char.isDigit, rest.dropWhile Char.isDigit)
    | _ => ([], cs)
  let rest := cs.dropWhile fun c => c = ' ' || c = '\t'
  let offset ← if cs.isEmpty then some none else (zone? rest).map some
  return ⟨Decimal.natOfDigits hour, Decimal.natOfDigits minute, Decimal.natOfDigits second,
    fraction, offset⟩

/-- A year of four digits, and after dashes a month and a day. -/
def day? (cs : List Char) : Option ((List Char × List Char × List Char) × List Char) := do
  let year := cs.take 4
  if year.length ≠ 4 ∨ !year.all Char.isDigit then failure
  let '-' :: rest := cs.drop 4 | failure
  let (month, rest) ← shortNumber? rest
  let '-' :: rest := rest | failure
  let (day, rest) ← shortNumber? rest
  return ((year, month, day), rest)

/-- What follows a day up to the end: nothing, or a time of day after the letter T or gaps. -/
def afterDay? (cs : List Char) : Option (Option TimeOfDay) :=
  match cs with
  | [] => some none
  | c :: rest =>
      if c = 'T' ∨ c = 't' then (timeOfDay? rest).map some
      else if c = ' ' ∨ c = '\t' then
        (timeOfDay? (rest.dropWhile fun c => c = ' ' || c = '\t')).map some
      else none

/-- Whether a text is a timestamp.  Without a time of day its numbers have their full width. -/
def isTimestamp (cs : List Char) : Bool :=
  match day? cs with
  | some ((_, month, day), rest) =>
      match afterDay? rest with
      | some none => month.length = 2 && day.length = 2
      | some (some _) => true
      | none => false
  | none => false

/-! ### Plain scalars -/

/-- A text without the line feed at its end, if it has one. -/
def withoutLineFeed (cs : List Char) : List Char :=
  if cs.getLast? = some '\n' then cs.dropLast else cs

/-- The tag of a plain scalar.  A line feed at the end does not count. -/
def Tag.ofPlain (text : String) : Tag :=
  if text = "" then null
  else
    let cs := withoutLineFeed text.toList
    let word := String.ofList cs
    if word ∈ truthWords then truth
    else if isFraction cs then fraction
    else if isInteger cs then integer
    else if word = "<<" then merge
    else if word ∈ nullWords then null
    else if isTimestamp cs then timestamp
    else if word = "=" then main
    else if word ∈ ["!", "&", "*"] then foreign
    else Tag.text

end FuzzyGates.Yaml
