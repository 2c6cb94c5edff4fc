import FuzzyGates.Calendar.Moment
import FuzzyGates.Decimal.Numeral

/-!
# What can be wrong with a text

Most faults mean that a text is malformed, and nothing more is said about them.
The others concern a value whose tag or escape says what it is and which is not
that; they say what is wrong with it.
-/

namespace FuzzyGates.Yaml

/-- Why a text has no document. -/
inductive Fault
  | malformed
  /-- A truth value is none of the words for one. -/
  | unknownTruth (word : String)
  | numeral (fault : Decimal.NumeralFault)
  /-- A number has no characters. -/
  | emptyNumber
  /-- A number has more parts to base sixty than a degree can count. -/
  | tooManyParts
  /-- An escape is the code of no character. -/
  | noCharacter
  /-- An escape is not even a code. -/
  | noCode
  | calendar (fault : Calendar.Fault)
  /-- A timestamp has another form. -/
  | noTimestamp
  /-- A timestamp is a mapping. -/
  | timestampMapping
  deriving DecidableEq, Repr

/-- The wording of a fault. -/
def Fault.message : Fault → String
  | malformed => "Invalid YAML"
  | unknownTruth word => Text.quoted word
  | numeral fault => fault.message
  | emptyNumber => "string index out of range"
  | tooManyParts => "int too large to convert to float"
  | noCharacter => "chr() arg not in range(0x110000)"
  | noCode => "Python int too large to convert to C int"
  | calendar fault => fault.message
  | noTimestamp => "'NoneType' object has no attribute 'groupdict'"
  | timestampMapping => "expected string or bytes-like object, got 'list'"

end FuzzyGates.Yaml
