import FuzzyGates.Text.Quoted

/-!
# Strings of bytes

A string of bytes is written like a quoted text after the letter `b`, with
every byte outside printable ASCII escaped.  `decodeBytes?` reads it as UTF-8.
-/

namespace FuzzyGates.Text

/-- A byte inside quotes. -/
def escapeByte (quote : Char) (b : UInt8) : List Char :=
  if b.toNat < 127 then escapeChar quote (Char.ofNat b.toNat)
  else '\\' :: 'x' :: hexDigits 2 b.toNat

/-- The quoted form of a string of bytes. -/
def quotedBytes (bs : List UInt8) : String :=
  let quote := quoteFor (bs.map fun b => Char.ofNat b.toNat)
  String.ofList ('b' :: quote :: bs.flatMap (escapeByte quote) ++ [quote])

/-- The text that a string of bytes encodes as UTF-8. -/
def decodeBytes? (bs : List UInt8) : Option String :=
  (String.fromUTF8? ⟨bs.toArray⟩).map fun s => ofChars s.toList

end FuzzyGates.Text
