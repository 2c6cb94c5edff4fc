/-!
# Places in a text

A cursor is what is left of a text, with the line and the column that it stands
at.  A carriage return and the line feed after it are one line break.
-/

namespace FuzzyGates.Yaml

/-- Whether a character ends a line. -/
def isBreak (c : Char) : Bool :=
  c = '\n' || c = '\r' || c = '\u0085' || c = '\u2028' || c = '\u2029'

/-- Whether a character is a space, a tab or the end of a line. -/
def isGap (c : Char) : Bool := c = ' ' || c = '\t' || isBreak c

/-- Whether a text is at its end or goes on with a gap. -/
def gapNext : List Char → Bool
  | [] => true
  | c :: _ => isGap c

/-- Whether a character may occur in a text at all. -/
def isAllowed (c : Char) : Bool :=
  let n := c.toNat
  n = 0x09 || n = 0x0A || n = 0x0D || (0x20 ≤ n && n ≤ 0x7E) || n = 0x85 ||
    (0xA0 ≤ n && n ≤ 0xFFFD) || 0x10000 ≤ n

/-- What is left of a text and where it starts. -/
structure Cursor where
  rest : List Char
  offset : Nat
  line : Nat
  column : Nat

namespace Cursor

/-- The beginning of a text; a byte order mark there is passed over. -/
def start (cs : List Char) : Cursor :=
  match cs with
  | '\ufeff' :: rest => ⟨rest, 1, 0, 0⟩
  | _ => ⟨cs, 0, 0, 0⟩

/-- Pass over one character. -/
def next (c : Cursor) : Cursor :=
  match c.rest with
  | [] => c
  | '\r' :: '\n' :: rest => { c with rest := '\n' :: rest, offset := c.offset + 1 }
  | ch :: rest =>
      if isBreak ch then ⟨rest, c.offset + 1, c.line + 1, 0⟩
      else ⟨rest, c.offset + 1, c.line, if ch = '\ufeff' then c.column else c.column + 1⟩

/-- Pass over a number of characters. -/
def skip : Nat → Cursor → Cursor
  | 0, c => c
  | n + 1, c => skip n c.next

/-- Whether a line break comes next. -/
def atBreak (c : Cursor) : Bool := c.rest.head?.any isBreak

/-- Pass over one line break; it counts as a line feed, apart from the two separators. -/
def passBreak (c : Cursor) : Char × Cursor :=
  match c.rest with
  | '\r' :: '\n' :: _ => ('\n', c.skip 2)
  | '\u2028' :: _ => ('\u2028', c.next)
  | '\u2029' :: _ => ('\u2029', c.next)
  | _ => ('\n', c.next)

/-- Pass over a line break if one comes next. -/
def passLineEnd (c : Cursor) : List Char × Cursor :=
  if c.atBreak then
    let (b, c) := c.passBreak
    ([b], c)
  else ([], c)

/-- Pass over what satisfies a condition. -/
def skipWhile (p : Char → Bool) (c : Cursor) : Cursor := c.skip (c.rest.takeWhile p).length

/-- The characters that satisfy a condition, and the place after them. -/
def span (p : Char → Bool) (c : Cursor) : List Char × Cursor :=
  let cs := c.rest.takeWhile p
  (cs, c.skip cs.length)

/-- Whether the text is at its end or at the end of a line. -/
def atLineEnd (c : Cursor) : Bool := c.rest.head?.all isBreak

/-- Whether the text is at its end, at the end of a line or at a space. -/
def atSpace (c : Cursor) : Bool := c.rest.head?.all fun ch => ch = ' ' || isBreak ch

/-- Whether three given characters come next, followed by a gap. -/
def marks (mark : Char) (c : Cursor) : Bool :=
  match c.rest with
  | x :: y :: z :: rest => x = mark && y = mark && z = mark && gapNext rest
  | _ => false

/-- Whether the line starts with a mark between documents. -/
def atDocumentMark (c : Cursor) : Bool := c.marks '-' || c.marks '.'

end Cursor

end FuzzyGates.Yaml
