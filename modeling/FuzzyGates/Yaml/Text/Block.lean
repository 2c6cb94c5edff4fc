import FuzzyGates.Yaml.Fault
import FuzzyGates.Yaml.Cursor

/-!
# Block scalars

A block scalar is the indented lines after its header.  The header can give the
indentation, which otherwise is that of the first line with content, and says
what becomes of the line breaks at the end.  A folded block turns the break
between two lines that both begin without a gap into a space.
-/

namespace FuzzyGates.Yaml

/-- What becomes of the line breaks at the end of a block scalar. -/
inductive Chomping
  /-- All are left out. -/
  | strip
  /-- The first is kept. -/
  | clip
  /-- All are kept. -/
  | keep
  deriving DecidableEq, Repr

/-- The sign for a way of chomping. -/
def chomping? : Char → Option Chomping
  | '+' => some .keep
  | '-' => some .strip
  | _ => none

/-- A digit of a header that gives the indentation relative to the surroundings. -/
def indentation (c : Cursor) : Except Fault (Option Nat × Cursor) :=
  match c.rest with
  | d :: _ =>
      if d = '0' then .error .malformed
      else if d.isDigit then .ok (Decimal.digitValue? d, c.next)
      else .ok (none, c)
  | [] => .ok (none, c)

/-- A sign of a header that gives the way of chomping. -/
def chompingSign (c : Cursor) : Option Chomping × Cursor :=
  match c.rest.head?.bind chomping? with
  | some ch => (some ch, c.next)
  | none => (none, c)

/-- What a line holds after its last token: spaces and perhaps a comment.  The place after the
line. -/
def restOfLine (c : Cursor) : Except Fault Cursor :=
  let c := c.skipWhile (· = ' ')
  let c := if c.rest.head? = some '#' then c.skipWhile (fun ch => !isBreak ch) else c
  if c.atLineEnd then .ok c.passLineEnd.2 else .error .malformed

/-- The header of a block scalar: sign and digit in either order. -/
def blockHeader (c : Cursor) : Except Fault (Chomping × Option Nat × Cursor) := do
  let (before, c) := chompingSign c
  let (indent, c) ← indentation c
  let (after, c) := if before.isNone ∧ indent.isSome then chompingSign c else (none, c)
  if !c.atSpace then throw .malformed
  return ((before.or after).getD .clip, indent, ← restOfLine c)

/-- The empty lines before the first line with content, and the greatest indentation met up to
there. -/
def leadingBreaks : Nat → Nat → Cursor → List Char × Nat × Cursor
  | 0, widest, c => ([], widest, c)
  | fuel + 1, widest, c =>
      match c.rest with
      | ' ' :: _ => leadingBreaks fuel (max widest c.next.column) c.next
      | _ =>
          if c.atBreak then
            let (b, c) := c.passBreak
            let (bs, widest, c) := leadingBreaks fuel widest c
            (b :: bs, widest, c)
          else ([], widest, c)

/-- Pass over spaces as far as a column. -/
def indentTo (column : Nat) (c : Cursor) : Cursor :=
  c.skip (((c.rest.takeWhile (· = ' ')).length).min (column - c.column))

/-- The empty lines before the next line with content, and the place up to which that line is
indented. -/
def blockBreaks (indent : Nat) : Nat → Cursor → List Char × Cursor
  | 0, c => ([], c)
  | fuel + 1, c =>
      let c := indentTo indent c
      if c.atBreak then
        let (b, c) := c.passBreak
        let (bs, c) := blockBreaks indent fuel c
        (b :: bs, c)
      else ([], c)

/-- Whether a line with content begins here. -/
def startsLine (indent : Nat) (c : Cursor) : Bool := c.column = indent && !c.rest.isEmpty

/-- Whether a gap comes next. -/
def startsWithGap (c : Cursor) : Bool := c.rest.head?.any fun ch => ch = ' ' || ch = '\t'

/-- The lines of a block scalar from one with content on, after some empty ones: what they stand
for, the break after the last of them, the empty lines behind it and the place after all. -/
def blockLines (folded : Bool) (indent : Nat) :
    Nat → List Char → Cursor → List Char × List Char × List Char × Cursor
  | 0, breaks, c => ([], [], breaks, c)
  | fuel + 1, breaks, c =>
      if startsLine indent c then
        let (line, after) := c.span fun ch => !isBreak ch
        let (lineBreak, after) := after.passLineEnd
        let (next, after) := blockBreaks indent (after.rest.length + 1) after
        if startsLine indent after then
          let joined :=
            if folded && lineBreak = ['\n'] && !startsWithGap c && !startsWithGap after then
              if next.isEmpty then [' '] else []
            else lineBreak
          let (more, last, trailing, c) := blockLines folded indent fuel next after
          (breaks ++ line ++ joined ++ more, last, trailing, c)
        else (breaks ++ line, lineBreak, next, after)
      else ([], [], breaks, c)

/-- A block scalar inside a block collection of a given indentation, after the sign that begins
it. -/
def blockScalar (folded : Bool) (indent : Int) (c : Cursor) :
    Except Fault (List Char × Cursor) := do
  let (chomping, relative, c) ← blockHeader c
  let least := (max (indent + 1) 1).toNat
  let (column, breaks, c) :=
    match relative with
    | some n =>
        let column := least + n - 1
        (column, blockBreaks column (c.rest.length + 1) c)
    | none =>
        let (breaks, widest, c) := leadingBreaks (c.rest.length + 1) 0 c
        (max least widest, breaks, c)
  let (text, lineBreak, trailing, c) := blockLines folded column (c.rest.length + 1) breaks c
  return (text ++ (if chomping = .strip then [] else lineBreak) ++
    (if chomping = .keep then trailing else []), c)

end FuzzyGates.Yaml
