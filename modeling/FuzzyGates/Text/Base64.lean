/-!
# Base64

Four characters stand for three bytes.  Characters outside the alphabet are
passed over, so that long data can be broken into lines.  After the second
character of a group, equal signs may stand for the missing ones; they end the
data, whatever follows.  Data that end inside a group without them are refused.
-/

namespace FuzzyGates.Text.Base64

/-- The six bits that a character of the alphabet stands for. -/
def sextet? (c : Char) : Option Nat :=
  if 'A' ≤ c ∧ c ≤ 'Z' then some (c.toNat - 'A'.toNat)
  else if 'a' ≤ c ∧ c ≤ 'z' then some (c.toNat - 'a'.toNat + 26)
  else if '0' ≤ c ∧ c ≤ '9' then some (c.toNat - '0'.toNat + 52)
  else if c = '+' then some 62
  else if c = '/' then some 63
  else none

/-- The bytes of the rest of the data, inside a group of which `filled` characters have been
read.  `left` holds their bits that are not yet part of a byte, `pads` counts the equal signs
since the last of them. -/
def decodeFrom : (filled left pads : Nat) → List Char → Option (List UInt8)
  | filled, _, _, [] => if filled = 0 then some [] else none
  | filled, left, pads, c :: rest =>
      if c = '=' then
        if filled < 2 then decodeFrom filled left pads rest
        else if 4 ≤ filled + pads + 1 then some []
        else decodeFrom filled left (pads + 1) rest
      else
        match sextet? c with
        | none => decodeFrom filled left pads rest
        | some v =>
            match filled with
            | 0 => decodeFrom 1 v 0 rest
            | 1 => (decodeFrom 2 (v % 16) 0 rest).map (UInt8.ofNat (left * 4 + v / 16) :: ·)
            | 2 => (decodeFrom 3 (v % 4) 0 rest).map (UInt8.ofNat (left * 16 + v / 4) :: ·)
            | _ => (decodeFrom 0 0 0 rest).map (UInt8.ofNat (left * 64 + v) :: ·)

/-- The bytes that data stand for. -/
def decode? (cs : List Char) : Option (List UInt8) := decodeFrom 0 0 0 cs

end FuzzyGates.Text.Base64
