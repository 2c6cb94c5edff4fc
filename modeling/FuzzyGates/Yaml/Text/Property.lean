import FuzzyGates.Text.Bytes
import FuzzyGates.Yaml.Text.Block
import FuzzyGates.Yaml.Token

/-!
# Anchors, tags and directives

An anchor names a node, and a reference stands for the node of that name.  A
tag is written in full between angle brackets, or as a handle and the rest; a
lone exclamation mark is a tag of its own.  Directives stand on lines that
begin with a percent sign.
-/

namespace FuzzyGates.Yaml

/-- Whether a character can be part of the name of an anchor, a handle or a directive. -/
def isNameChar (c : Char) : Bool := c.isAlphanum || c = '-' || c = '_'

/-- Whether a character can be part of a tag. -/
def isTagChar (c : Char) : Bool := c.isAlphanum || c ∈ "-;/?:@&=+$,_.!~*'()[]%".toList

/-- Whether a character can follow the name of an anchor. -/
def endsAnchor (c : Char) : Bool := isGap c || c ∈ "?:,]\x7d%@".toList || c = Char.ofNat 96

/-- A name of one or more characters, and the place after it. -/
def readName (c : Cursor) : Except Fault (String × Cursor) :=
  let (cs, after) := c.span isNameChar
  if cs.isEmpty then .error .malformed else .ok (String.ofList cs, after)

/-- The name of an anchor or a reference, after the sign for it. -/
def readAnchor (c : Cursor) : Except Fault (String × Cursor) := do
  let (s, c) ← readName c
  if c.rest.head?.all endsAnchor then return (s, c) else throw .malformed

/-- Bytes that are written as hexadecimal digits after percent signs. -/
def readBytes : Nat → Cursor → Except Fault (List UInt8 × Cursor)
  | 0, c => .ok ([], c)
  | fuel + 1, c =>
      match c.rest with
      | '%' :: a :: b :: _ => do
          if !Decimal.isDigitIn 16 a || !Decimal.isDigitIn 16 b then throw .malformed
          let (bs, c) ← readBytes fuel (c.skip 3)
          return (UInt8.ofNat (Decimal.valueIn 16 [a, b]) :: bs, c)
      | '%' :: _ => .error .malformed
      | _ => .ok ([], c)

/-- The characters of a tag, of which those after percent signs encode others. -/
def readTagChars : Nat → Cursor → Except Fault (List Char × Cursor)
  | 0, c => .ok ([], c)
  | fuel + 1, c =>
      match c.rest with
      | '%' :: _ => do
          let (bs, c) ← readBytes c.rest.length c
          let some s := Text.decodeBytes? bs | throw .malformed
          let (more, c) ← readTagChars fuel c
          return (s.toList ++ more, c)
      | ch :: _ => do
          if !isTagChar ch then return ([], c)
          let (more, c) ← readTagChars fuel c.next
          return (ch :: more, c)
      | [] => .ok ([], c)

/-- One or more characters of a tag. -/
def readSuffix (c : Cursor) : Except Fault (String × Cursor) := do
  if !c.rest.head?.any isTagChar then throw .malformed
  let (cs, c) ← readTagChars c.rest.length c
  return (String.ofList cs, c)

/-- A handle: an exclamation mark alone before a space, or two with a name between them. -/
def readHandle (c : Cursor) : Except Fault (String × Cursor) := do
  if c.rest.head? ≠ some '!' then throw .malformed
  if c.next.rest.head? = some ' ' then return ("!", c.next)
  let (cs, after) := c.next.span isNameChar
  if after.rest.head? = some '!' then
    return (String.ofList ('!' :: cs ++ ['!']), after.next)
  else throw .malformed

/-- Whether a tag that begins here has a handle with a name, which it has if another exclamation
mark follows before the next space. -/
def hasLongHandle (c : Cursor) : Bool :=
  (c.rest.drop 1).takeWhile (fun ch => ch ≠ ' ' && !isBreak ch) |>.contains '!'

/-- A tag. -/
def readTag (c : Cursor) : Except Fault (TagText × Cursor) := do
  let (t, c) ← (match c.rest.drop 1 with
    | '<' :: _ => do
        let (s, c) ← readSuffix (c.skip 2)
        if c.rest.head? ≠ some '>' then throw .malformed
        pure (⟨none, s⟩, c.next)
    | after =>
        if gapNext after then pure (⟨none, "!"⟩, c.next)
        else do
          let (h, c) ← if hasLongHandle c then readHandle c else pure ("!", c.next)
          let (s, c) ← readSuffix c
          pure (⟨some h, s⟩, c) : Except Fault (TagText × Cursor))
  if c.atSpace then return (t, c) else throw .malformed

/-- A number in a directive. -/
def readNumber (c : Cursor) : Except Fault (Nat × Cursor) := do
  let (ds, c) := c.span Char.isDigit
  if ds.isEmpty then throw .malformed
  if Decimal.digitLimit < ds.length then throw (.numeral (.tooManyDigits ds.length))
  return (Decimal.valueIn 10 ds, c)

/-- The version in a directive. -/
def readVersion (c : Cursor) : Except Fault (Directive × Cursor) := do
  let (major, c) ← readNumber (c.skipWhile (· = ' '))
  if c.rest.head? ≠ some '.' then throw .malformed
  let (minor, c) ← readNumber c.next
  if c.atSpace then return (.version major minor, c) else throw .malformed

/-- The handle in a directive and what it stands for. -/
def readMeaning (c : Cursor) : Except Fault (Directive × Cursor) := do
  let (h, c) ← readHandle (c.skipWhile (· = ' '))
  if c.rest.head? ≠ some ' ' then throw .malformed
  let (s, c) ← readSuffix (c.skipWhile (· = ' '))
  if c.atSpace then return (.handle h s, c) else throw .malformed

/-- A directive after its percent sign, up to and including the end of its line. -/
def readDirective (c : Cursor) : Except Fault (Directive × Cursor) := do
  let (s, c) ← readName c
  if !c.atSpace then throw .malformed
  let (d, c) ← (match s with
    | "YAML" => readVersion c
    | "TAG" => readMeaning c
    | _ => pure (.unknown, c.skipWhile fun ch => !isBreak ch) :
      Except Fault (Directive × Cursor))
  return (d, ← restOfLine c)

end FuzzyGates.Yaml
