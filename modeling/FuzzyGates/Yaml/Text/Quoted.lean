import FuzzyGates.Yaml.Fault
import FuzzyGates.Yaml.Text.Plain

/-!
# Quoted scalars

Between single quotes only the quote itself needs care, being written twice.
Between double quotes a backslash begins an escape: a letter for a control
character, the number of a code point in hexadecimal digits, or a line break
that does not count.
-/

namespace FuzzyGates.Yaml

/-- The characters that an escaped letter stands for. -/
def escapes : List (Char × Char) :=
  [('0', '\x00'), ('a', '\x07'), ('b', '\x08'), ('t', '\t'), ('\t', '\t'), ('n', '\n'),
   ('v', '\x0b'), ('f', '\x0c'), ('r', '\r'), ('e', '\x1b'), (' ', ' '), ('"', '"'),
   ('\\', '\\'), ('/', '/'), ('N', '\u0085'), ('_', '\u00a0'), ('L', '\u2028'), ('P', '\u2029')]

/-- The number of hexadecimal digits after an escaped letter. -/
def escapeWidths : List (Char × Nat) := [('x', 2), ('u', 4), ('U', 8)]

/-- The written form of the code point that an escape gives. -/
def pointOfCode (code : Nat) : Except Fault (List Char) :=
  if 0x7FFFFFFF < code then .error .noCode
  else if 0x10FFFF < code then .error .noCharacter
  else .ok (Text.ofPoint code)

/-- Line breaks and gaps at the beginning of lines inside quotes, where no mark between documents
may stand. -/
def quotedBreaks : Nat → Cursor → Except Fault (List Char × Cursor)
  | 0, c => .ok ([], c)
  | fuel + 1, c => do
      if c.atDocumentMark then throw .malformed
      let c := c.skipWhile fun ch => ch = ' ' || ch = '\t'
      if c.atBreak then
        let (b, c) := c.passBreak
        let (bs, c) ← quotedBreaks fuel c
        return (b :: bs, c)
      else return ([], c)

/-- An escape after its backslash: what it stands for and the place after it. -/
def escape (c : Cursor) : Except Fault (List Char × Cursor) := do
  let some e := c.rest.head? | throw .malformed
  match escapes.find? fun p => p.1 = e, escapeWidths.find? fun p => p.1 = e with
  | some p, _ => return ([p.2], c.next)
  | none, some p =>
      let digits := (c.rest.drop 1).take p.2
      if digits.length ≠ p.2 ∨ !digits.all (Decimal.isDigitIn 16) then throw .malformed
      return (← pointOfCode (Decimal.valueIn 16 digits), c.skip (p.2 + 1))
  | none, none =>
      if isBreak e then quotedBreaks c.rest.length c.passBreak.2 else throw .malformed

/-- The rest of a quoted scalar up to and including its closing quote. -/
def quotedFrom (double : Bool) : Nat → Cursor → Except Fault (List Char × Cursor)
  | 0, _ => .error .malformed
  | fuel + 1, c => do
      let quote := if double then '"' else '\''
      match c.rest with
      | [] => throw .malformed
      | ch :: rest =>
          if ch = quote ∧ (double ∨ rest.head? ≠ some quote) then return ([], c.next)
          let (cs, c) ←
            if ch = quote then pure ([quote], c.skip 2)
            else if ch = '\\' ∧ double then escape c.next
            else if ch = ' ' ∨ ch = '\t' ∨ isBreak ch then do
              let (gap, after) := c.span fun ch => ch = ' ' || ch = '\t'
              if after.atBreak then
                let (b, next) := after.passBreak
                let (bs, c) ← quotedBreaks (next.rest.length + 1) next
                pure (foldBreaks b bs, c)
              else pure (gap, after)
            else pure (Text.ofPoint ch.toNat, c.next)
          let (more, c) ← quotedFrom double fuel c
          return (cs ++ more, c)

end FuzzyGates.Yaml
