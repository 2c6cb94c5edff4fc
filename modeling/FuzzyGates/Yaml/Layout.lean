import FuzzyGates.Yaml.Text.Property
import FuzzyGates.Yaml.Text.Quoted

/-!
# From characters to tokens

Outside flow collections the indentation of keys and list items opens and
closes block collections.  A node turns out to be a key only when a colon
follows on its line, so its place is remembered and the tokens for the key are
put in there afterwards.  A reader of the tokens therefore never sees beyond a
place where a key may still have begun.
-/

namespace FuzzyGates.Yaml

/-- A place where a key may have begun. -/
structure KeyPlace where
  /-- The number of tokens before it. -/
  tokenCount : Nat
  /-- A colon has to follow, for nothing else can stand at this indentation. -/
  required : Bool
  offset : Nat
  line : Nat
  column : Nat

/-- How far a text has been read. -/
structure Layout where
  cursor : Cursor
  /-- The indentation of the innermost block collection. -/
  indent : Int
  /-- The indentations around it. -/
  outer : List Int
  /-- A key may begin here. -/
  keyAllowed : Bool
  /-- The last place of a key in each flow collection, innermost first, and outside of all. -/
  keys : List (Option KeyPlace)
  /-- The tokens so far, newest first. -/
  tokens : List Token

namespace Layout

/-- Nothing has been read. -/
def start (cs : List Char) : Layout := ⟨.start cs, -1, [], true, [none], []⟩

/-- Whether the place is inside a flow collection. -/
def inFlow (s : Layout) : Bool := 1 < s.keys.length

/-- Add a token. -/
def push (t : Token) (s : Layout) : Layout := { s with tokens := t :: s.tokens }

/-- Add a token that stands for a number of characters. -/
def take (n : Nat) (t : Token) (s : Layout) : Layout :=
  { s with cursor := s.cursor.skip n, tokens := t :: s.tokens }

/-- Say whether a key may begin at the next place. -/
def allowKey (b : Bool) (s : Layout) : Layout := { s with keyAllowed := b }

/-- Pass over spaces, comments and line breaks. -/
def skipGaps : Nat → Layout → Layout
  | 0, s => s
  | fuel + 1, s =>
      let c := s.cursor.skipWhile (· = ' ')
      let c := if c.rest.head? = some '#' then c.skipWhile (fun ch => !isBreak ch) else c
      if c.atBreak then
        skipGaps fuel { s with cursor := c.passBreak.2, keyAllowed := s.keyAllowed || !s.inFlow }
      else { s with cursor := c }

/-- Whether the place of a key can no longer be followed by its colon. -/
def isStale (s : Layout) (k : KeyPlace) : Bool :=
  k.line ≠ s.cursor.line || k.offset + 1024 < s.cursor.offset

/-- Forget places of keys that can no longer be followed by their colon. -/
def dropStale (s : Layout) : Except Fault Layout := do
  if s.keys.any fun k => k.any fun k => s.isStale k && k.required then throw .malformed
  return { s with keys := s.keys.map fun k => k.filter fun k => !s.isStale k }

/-- Close the block collections that are indented further than a column. -/
def unwind (column : Int) (s : Layout) : Layout :=
  if s.inFlow then s
  else
    let closed := (s.indent :: s.outer).takeWhile fun i => column < i
    match (s.indent :: s.outer).drop closed.length with
    | [] => s
    | indent :: outer =>
        { s with
          indent := indent
          outer := outer
          tokens := List.replicate closed.length Token.blockEnd ++ s.tokens }

/-- Open a block collection at a column, if it is indented further than the innermost one. -/
def openBlock (column : Nat) (t : Token) (s : Layout) : Layout :=
  if s.indent < column then
    { s with indent := column, outer := s.indent :: s.outer, tokens := t :: s.tokens }
  else s

/-- The innermost place of a key. -/
def keyPlace (s : Layout) : Option KeyPlace := s.keys.head?.join

/-- Replace the innermost place of a key. -/
def setKey (k : Option KeyPlace) (s : Layout) : Layout := { s with keys := k :: s.keys.drop 1 }

/-- Forget the innermost place of a key, unless its colon is required. -/
def dropKey (s : Layout) : Except Fault Layout :=
  match s.keyPlace with
  | some k => if k.required then .error .malformed else .ok (s.setKey none)
  | none => .ok s

/-- Remember the present place as that of a key, if one may begin here. -/
def saveKey (s : Layout) : Except Fault Layout := do
  if s.keyAllowed then
    let s ← s.dropKey
    return s.setKey (some
      { tokenCount := s.tokens.length
        required := !s.inFlow && s.indent = s.cursor.column
        offset := s.cursor.offset
        line := s.cursor.line
        column := s.cursor.column })
  else return s

/-- Put a token in after the first `count` tokens. -/
def insertAt (count : Nat) (t : Token) (s : Layout) : Layout :=
  { s with tokens := s.tokens.insertIdx (s.tokens.length - count) t }

/-- The signs that begin or end a flow collection. -/
def flowStart (t : Token) (s : Layout) : Except Fault Layout := do
  let s ← s.saveKey
  return ({ s with keys := none :: s.keys }.allowKey true).take 1 t

/-- The end of a flow collection. -/
def flowEnd (t : Token) (s : Layout) : Except Fault Layout := do
  let s ← s.dropKey
  if s.inFlow then return ({ s with keys := s.keys.drop 1 }.allowKey false).take 1 t
  else throw .malformed

/-- A mark between documents. -/
def documentMark (t : Token) (s : Layout) : Except Fault Layout := do
  let s ← (s.unwind (-1)).dropKey
  return (s.allowKey false).take 3 t

/-- The comma of a flow collection. -/
def comma (s : Layout) : Except Fault Layout := do
  let s ← (s.allowKey true).dropKey
  return s.take 1 .flowItem

/-- The dash of a list item. -/
def dash (s : Layout) : Except Fault Layout := do
  if !s.inFlow && !s.keyAllowed then throw .malformed
  let s := if s.inFlow then s else s.openBlock s.cursor.column .blockList
  let s ← (s.allowKey true).dropKey
  return s.take 1 .blockItem

/-- The question mark of a key. -/
def question (s : Layout) : Except Fault Layout := do
  if !s.inFlow && !s.keyAllowed then throw .malformed
  let s := if s.inFlow then s else s.openBlock s.cursor.column .blockMapping
  let s ← (s.allowKey !s.inFlow).dropKey
  return s.take 1 .key

/-- The colon of a value. -/
def colon (s : Layout) : Except Fault Layout := do
  match s.keyPlace with
  | some k =>
      let s := (s.setKey none).insertAt k.tokenCount .key
      let s :=
        if !s.inFlow && s.indent < k.column then
          { s with indent := k.column, outer := s.indent :: s.outer }.insertAt
            k.tokenCount .blockMapping
        else s
      return (s.allowKey false).take 1 .value
  | none =>
      if !s.inFlow && !s.keyAllowed then throw .malformed
      let s := if s.inFlow then s else s.openBlock s.cursor.column .blockMapping
      let s ← (s.allowKey !s.inFlow).dropKey
      return s.take 1 .value

/-- Put in a token that has been read up to a place and can be a key, or the beginning of one. -/
def property (read : Cursor → Except Fault (Token × Cursor)) (s : Layout) :
    Except Fault Layout := do
  let s ← s.saveKey
  let (t, c) ← read s.cursor
  return { s with cursor := c, keyAllowed := false }.push t

/-- The name of a node. -/
def anchor : Layout → Except Fault Layout :=
  property fun c => do
    let (s, c) ← readAnchor c.next
    return (.anchor s, c)

/-- A reference to a node. -/
def reference : Layout → Except Fault Layout :=
  property fun c => do
    let (s, c) ← readAnchor c.next
    return (.reference s, c)

/-- The tag of a node. -/
def tag : Layout → Except Fault Layout :=
  property fun c => do
    let (t, c) ← readTag c
    return (.tag t, c)

/-- A quoted scalar. -/
def quotedScalar (double : Bool) : Layout → Except Fault Layout :=
  property fun c => do
    let (text, c) ← quotedFrom double (c.rest.length + 1) c.next
    return (.scalar (String.ofList text) false, c)

/-- A plain scalar. -/
def plainScalar (s : Layout) : Except Fault Layout := do
  let s ← s.saveKey
  let (text, newLine, c) :=
    plainFrom s.inFlow (s.indent + 1) (s.cursor.rest.length + 1) false s.cursor
  return { s with cursor := c, keyAllowed := newLine }.push (.scalar (Text.ofChars text) true)

/-- A block scalar, after which a key may begin. -/
def block (folded : Bool) (s : Layout) : Except Fault Layout := do
  let s ← (s.allowKey true).dropKey
  let (text, c) ← blockScalar folded s.indent s.cursor.next
  return { s with cursor := c }.push (.scalar (Text.ofChars text) false)

/-- A directive. -/
def directive (s : Layout) : Except Fault Layout := do
  let s ← (s.unwind (-1)).dropKey
  let (d, c) ← readDirective s.cursor.next
  return { s with cursor := c, keyAllowed := false }.push (.directive d)

/-- Whether a plain scalar can begin with a character before the given rest. -/
def startsPlain (inFlow : Bool) (c : Char) (rest : List Char) : Bool :=
  (!isGap c && c ∉ "-?:,[]{}#&*!|>'\"%@".toList && c ≠ Char.ofNat 96) ||
    (!gapNext rest && (c = '-' || (!inFlow && (c = '?' || c = ':'))))

/-- Read the next token, of which `c` is the first character. -/
def readToken (c : Char) (rest : List Char) (s : Layout) : Except Fault Layout :=
  if s.cursor.column = 0 ∧ c = '%' then s.directive
  else if s.cursor.column = 0 ∧ s.cursor.marks '-' then s.documentMark .documentStart
  else if s.cursor.column = 0 ∧ s.cursor.marks '.' then s.documentMark .documentEnd
  else
    match c with
    | '[' => s.flowStart .flowListStart
    | '{' => s.flowStart .flowMappingStart
    | ']' => s.flowEnd .flowListEnd
    | '}' => s.flowEnd .flowMappingEnd
    | ',' => s.comma
    | '*' => s.reference
    | '&' => s.anchor
    | '!' => s.tag
    | '\'' => s.quotedScalar false
    | '"' => s.quotedScalar true
    | _ =>
        if c = '-' && gapNext rest then s.dash
        else if c = '?' && (s.inFlow || gapNext rest) then s.question
        else if c = ':' && (s.inFlow || gapNext rest) then s.colon
        else if c = '|' && !s.inFlow then s.block false
        else if c = '>' && !s.inFlow then s.block true
        else if startsPlain s.inFlow c rest then s.plainScalar
        else throw .malformed

/-- The end of the text. -/
def finish (s : Layout) : Except Fault Layout := do
  return (← (s.unwind (-1)).dropKey).push .streamEnd

/-- Read the next token, or the end of the text. -/
def step (s : Layout) : Except Fault Layout := do
  let s ← (s.skipGaps (s.cursor.rest.length + 1)).dropStale
  let s := s.unwind s.cursor.column
  match s.cursor.rest with
  | [] => s.finish
  | c :: rest => s.readToken c rest

/-- The tokens before every place where a key may still have begun. -/
def settled (s : Layout) : List Token :=
  let pending := s.keys.filterMap fun k => k.filter fun k => !s.isStale k
  let count := pending.foldl (fun n k => n.min k.tokenCount) s.tokens.length
  s.tokens.reverse.take count

/-- Read all tokens. -/
def readAll : Nat → Layout → Tokens
  | 0, s => ⟨s.settled, some .malformed⟩
  | fuel + 1, s =>
      match s.step with
      | .error e => ⟨s.settled, some e⟩
      | .ok next =>
          if next.tokens.head? = some .streamEnd then ⟨next.tokens.reverse, none⟩
          else readAll fuel next

end Layout

/-- The tokens of a text. -/
def Tokens.ofChars (cs : List Char) : Tokens :=
  if cs.all isAllowed then Layout.readAll (cs.length + 1) (.start cs) else ⟨[], some .malformed⟩

end FuzzyGates.Yaml
