import FuzzyGates.Document.Basic
import FuzzyGates.Text.Base64
import FuzzyGates.Text.Lower
import FuzzyGates.Yaml.Fault
import FuzzyGates.Yaml.Tag

/-!
# The values of scalars

A tag that is given need not fit the text it is given to, so reading a value is
more liberal than finding the tag of a plain scalar, and can fail.  Low lines in
numbers do not count.
-/

namespace FuzzyGates.Yaml

/-- The words for truth values. -/
def truthValues : List (String × Bool) :=
  [("yes", true), ("no", false), ("true", true), ("false", false), ("on", true), ("off", false)]

/-- A truth value, in any case. -/
def truthOf (s : String) : Except Fault Bool :=
  match truthValues.find? fun p => p.1 = Text.lower s with
  | some p => .ok p.2
  | none => .error (.unknownTruth (Text.lower s))

/-- An integer in a base. -/
def integerIn (base : Nat) (cs : List Char) : Except Fault Int :=
  (Decimal.integerOf base (String.ofList cs)).mapError .numeral

/-- The value of parts to base sixty. -/
def sixtieths (ps : List Int) : Int := ps.foldl (fun n p => 60 * n + p) 0

/-- A whole number, whose beginning tells its base. -/
def integerValue (s : String) : Except Fault Int := do
  let cs := s.toList.filter (· ≠ '_')
  if cs.isEmpty then throw .emptyNumber
  let (negative, ds) := Decimal.takeSign cs
  let n ← match ds with
    | ['0'] => pure 0
    | '0' :: 'b' :: rest => integerIn 2 rest
    | '0' :: 'x' :: rest => integerIn 16 rest
    | '0' :: _ => integerIn 8 ds
    | [] => throw .emptyNumber
    | _ =>
        if ds.contains ':' then do
          let ps ← (parts ds).mapM (integerIn 10)
          pure (sixtieths ps)
        else integerIn 10 ds
  return if negative then -n else n

/-- The value of parts to base sixty, the last of which comes first. -/
def fractionalSixtieths : (place : Nat) → (sum : Float) → List Float → Except Fault Float
  | _, sum, [] => .ok sum
  | place, sum, p :: rest =>
      match Decimal.floatOfInt? (Nat.pow 60 place) with
      | some base => fractionalSixtieths (place + 1) (sum + p * base) rest
      | none => .error .tooManyParts

/-- The sign of a number, and its characters without case and low lines. -/
def fractionBody (s : String) : Bool × List Char :=
  Decimal.takeSign (Text.lower (String.ofList (s.toList.filter (· ≠ '_')))).toList

/-- Whether a text is the word for an undefined number. -/
def isUndefinedWord (s : String) : Bool := (fractionBody s).2 = ".nan".toList

/-- A number with a fraction. -/
def fractionValue (s : String) : Except Fault Float := do
  if s.toList.all (· = '_') then throw .emptyNumber
  let (negative, ds) := fractionBody s
  let read := fun cs => (Decimal.fractionOf (String.ofList cs)).mapError Fault.numeral
  if ds = ".inf".toList then return Decimal.withSign negative (1.0 / 0.0)
  else if isUndefinedWord s then return 0.0 / 0.0
  else if ds.contains ':' then do
    let ps ← (parts ds).mapM read
    return Decimal.withSign negative (← fractionalSixtieths 0 0.0 ps.reverse)
  else return Decimal.withSign negative (← read ds)

/-- Bytes in base 64. -/
def binaryValue (s : String) : Except Fault (List UInt8) :=
  if s.toList.all fun c => c.toNat < 128 then
    match Text.Base64.decode? s.toList with
    | some bs => .ok bs
    | none => .error .malformed
  else .error .malformed

/-- The microseconds that the digits of a fraction of a second denote. -/
def microseconds (ds : List Char) : Nat :=
  let six := ds.take 6
  Decimal.natOfDigits (six ++ List.replicate (6 - six.length) '0')

/-- A day or a moment. -/
def timestampValue (s : String) : Except Fault Atom :=
  match (day? (withoutLineFeed s.toList)).bind fun (d, rest) =>
    (afterDay? rest).map fun t => (d, t) with
  | none => .error .noTimestamp
  | some ((year, month, day), time) =>
      let date := Calendar.Date.of (Decimal.natOfDigits year) (Decimal.natOfDigits month)
        (Decimal.natOfDigits day)
      (match time with
        | none => do return .date (← date)
        | some t => do
            let offset ← t.offset.mapM fun (negative, hours, minutes) =>
              let span : Int := hours * 60 + minutes
              Calendar.checkOffset (if negative then -span else span)
            let moment ← Calendar.Moment.of (← date) t.hour t.minute t.second
              (microseconds t.fraction) offset
            return .moment moment : Except Calendar.Fault Atom).mapError .calendar

/-- The value of a scalar with a tag. -/
def scalarValue (tag : Tag) (s : String) : Except Fault Atom :=
  match tag with
  | .null => .ok .null
  | .truth => (truthOf s).map .bool
  | .integer => (integerValue s).map .int
  | .fraction => (fractionValue s).map .float
  | .binary => (binaryValue s).map .bytes
  | .timestamp => timestampValue s
  | .text => .ok (.text s)
  | _ => .error .malformed

end FuzzyGates.Yaml
