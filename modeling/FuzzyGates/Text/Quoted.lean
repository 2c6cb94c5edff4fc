import FuzzyGates.Text.Surrogate
import FuzzyGates.Text.Unprintable

/-!
# Quoted text

A quoted text stands between single quotes, or between double quotes if it
holds single quotes and no double ones.  Inside, the quote in use, the
backslash, every surrogate and every character without a printed form are
escaped, so that no two texts have the same quoted form.
-/

namespace FuzzyGates.Text

/-- Hexadecimal digits of a number, filled up with zeros to a width. -/
def hexDigits (width n : Nat) : List Char :=
  let ds := Nat.toDigits 16 n
  List.replicate (width - ds.length) '0' ++ ds

/-- The quote that a text is put between. -/
def quoteFor (cs : List Char) : Char :=
  if '\'' ∈ cs ∧ '"' ∉ cs then '"' else '\''

/-- A character inside quotes. -/
def escapeChar (quote c : Char) : List Char :=
  if c = quote ∨ c = '\\' then ['\\', c]
  else if c = '\n' then ['\\', 'n']
  else if c = '\r' then ['\\', 'r']
  else if c = '\t' then ['\\', 't']
  else if isUnprintable c then
    if c.toNat < 0x100 then '\\' :: 'x' :: hexDigits 2 c.toNat
    else if c.toNat < 0x10000 then '\\' :: 'u' :: hexDigits 4 c.toNat
    else '\\' :: 'U' :: hexDigits 8 c.toNat
  else [c]

/-- A code point inside quotes. -/
def escapePoint (quote : Char) (n : Nat) : List Char :=
  if isSurrogate n then '\\' :: 'u' :: hexDigits 4 n else escapeChar quote (Char.ofNat n)

/-- The quoted form of a text. -/
def quoted (s : String) : String :=
  let quote := quoteFor s.toList
  String.ofList (quote :: (points s.toList).flatMap (escapePoint quote) ++ [quote])

end FuzzyGates.Text
