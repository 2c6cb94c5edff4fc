import FuzzyGates.Yaml.Layout
import FuzzyGates.Yaml.Tag

/-!
# The graph of nodes

A node is a scalar, a list or a mapping.  Where a node can stand but none does,
it is the plain scalar without characters.  The parts of a collection are given
by their numbers, since a reference makes one node a part of several others, or
even of itself.
-/

namespace FuzzyGates.Yaml

/-- What a node is made of. -/
inductive Content
  | scalar (text : String)
  | list (items : List Nat)
  | mapping (entries : List (Nat × Nat))
  deriving DecidableEq, Repr

/-- A node. -/
structure Node where
  tag : Tag
  content : Content
  deriving DecidableEq, Repr

instance : Inhabited Node := ⟨⟨.null, .scalar ""⟩⟩

/-- The nodes of a document by their numbers. -/
structure Graph where
  nodes : Array Node
  /-- The numbers in the order in which nodes end, the last one first. -/
  ended : List Nat

namespace Graph

/-- Why tokens do not make up a document. -/
inductive Stop
  | malformed
  /-- There would have to be another token. -/
  | exhausted
  deriving DecidableEq, Repr

/-- A graph in the making. -/
structure Draft where
  graph : Graph
  anchors : List (String × Nat)
  /-- What handles stand for. -/
  handles : List (String × String)
  tokens : List Token

/-- What handles stand for unless directives say otherwise. -/
def usualHandles : List (String × String) := [("!", "!"), ("!!", Tag.root)]

/-- Operations on a graph in the making. -/
abbrev DraftM := StateT Draft (Except Stop)

/-- The next token. -/
def peek : DraftM Token := do
  match (← get).tokens with
  | t :: _ => return t
  | [] => throw .exhausted

/-- Pass over a token. -/
def advance : DraftM Unit := modify fun d => { d with tokens := d.tokens.drop 1 }

/-- Pass over a token that must come next. -/
def expect (t : Token) : DraftM Unit := do
  if (← peek) = t then advance else throw .malformed

/-- Add a node, under the name of an anchor if it has one. -/
def start (anchor : Option String) (n : Node) : DraftM Nat := do
  let d ← get
  let id := d.graph.nodes.size
  let anchors ← match anchor with
    | none => pure d.anchors
    | some name =>
        if d.anchors.any fun p => p.1 = name then throw .malformed
        else pure ((name, id) :: d.anchors)
  set { d with graph := { d.graph with nodes := d.graph.nodes.push n }, anchors := anchors }
  return id

/-- Give a node its content and end it. -/
def finish (id : Nat) (content : Content) : DraftM Nat := do
  modify fun d =>
    { d with graph :=
        { nodes := d.graph.nodes.modify id fun n => { n with content := content }
          ended := id :: d.graph.ended } }
  return id

/-- Add a scalar. -/
def scalar (anchor : Option String) (tag : Tag) (text : String) : DraftM Nat := do
  let id ← start anchor ⟨tag, .scalar text⟩
  finish id (.scalar text)

/-- The node that is left out. -/
def absent : DraftM Nat := scalar none (.ofPlain "") ""

/-- An anchor and a tag before a node, in either order. -/
def properties : DraftM (Option String × Option TagText) := do
  match (← peek) with
  | .anchor name =>
      advance
      match (← peek) with
      | .tag t => advance; return (some name, some t)
      | _ => return (some name, none)
  | .tag t =>
      advance
      match (← peek) with
      | .anchor name => advance; return (some name, some t)
      | _ => return (none, some t)
  | _ => return (none, none)

/-- The full name of a tag. -/
def fullName (t : TagText) : DraftM String := do
  match t.handle with
  | none => return t.suffix
  | some h =>
      match (← get).handles.find? fun p => p.1 = h with
      | some p => return p.2 ++ t.suffix
      | none => throw .malformed

/-- The tag of a scalar, given the full name of its tag. -/
def scalarTag (name : Option String) (text : String) (plain : Bool) : Tag :=
  match name with
  | none => if plain then .ofPlain text else .text
  | some "!" => .ofPlain text
  | some name => .ofName name

/-- The tag of a collection, given its full name and that of a collection without one. -/
def collectionTag (name : Option String) (usual : Tag) : Tag :=
  match name with
  | none | some "!" => usual
  | some name => .ofName name

mutual

/-- A node that must be there.  A list whose dashes are not indented further than the key before
it can only stand as the value of that key. -/
def node : Nat → (block unindented : Bool) → DraftM Nat
  | 0, _, _ => throw .malformed
  | fuel + 1, block, unindented => do
      if let .reference name ← peek then
        advance
        match (← get).anchors.find? fun p => p.1 = name with
        | some p => return p.2
        | none => throw .malformed
      let (anchor, tagText) ← properties
      let name ← tagText.mapM fullName
      let listOf (items : DraftM (List Nat)) : DraftM Nat := do
        let id ← start anchor ⟨collectionTag name .list, .list []⟩
        finish id (.list (← items))
      let mappingOf (entries : DraftM (List (Nat × Nat))) : DraftM Nat := do
        let id ← start anchor ⟨collectionTag name .mapping, .mapping []⟩
        finish id (.mapping (← entries))
      match (← peek), block, unindented with
      | .blockItem, _, true => listOf (unindentedItems fuel)
      | .scalar text plain, _, _ =>
          advance
          scalar anchor (scalarTag name text plain) text
      | .flowListStart, _, _ => advance; listOf (flowItems fuel true)
      | .flowMappingStart, _, _ => advance; mappingOf (flowEntries fuel true)
      | .blockList, true, _ => advance; listOf (blockItems fuel)
      | .blockMapping, true, _ => advance; mappingOf (blockEntries fuel)
      | _, _, _ =>
          if anchor.isSome ∨ tagText.isSome then scalar anchor (scalarTag name "" true) ""
          else throw .malformed

/-- A node, or the one that is left out before a token that ends its place. -/
def nodeUnless : Nat → (Token → Bool) → (block unindented : Bool) → DraftM Nat
  | 0, _, _, _ => throw .malformed
  | fuel + 1, ends, block, unindented => do
      if ends (← peek) then absent else node fuel block unindented

/-- The items of an indented block list. -/
def blockItems : Nat → DraftM (List Nat)
  | 0 => throw .malformed
  | fuel + 1 => do
      match (← peek) with
      | .blockItem =>
          advance
          let item ← nodeUnless fuel (fun t => t = .blockItem || t = .blockEnd) true false
          return item :: (← blockItems fuel)
      | .blockEnd => advance; return []
      | _ => throw .malformed

/-- The items of a block list that is not indented further than its key. -/
def unindentedItems : Nat → DraftM (List Nat)
  | 0 => throw .malformed
  | fuel + 1 => do
      match (← peek) with
      | .blockItem =>
          advance
          let ends := fun t => t = .blockItem || t = .key || t = .value || t = .blockEnd
          let item ← nodeUnless fuel ends true false
          return item :: (← unindentedItems fuel)
      | _ => return []

/-- The entries of a block mapping. -/
def blockEntries : Nat → DraftM (List (Nat × Nat))
  | 0 => throw .malformed
  | fuel + 1 => do
      match (← peek) with
      | .key =>
          advance
          let ends := fun t => t = .key || t = .value || t = .blockEnd
          let k ← nodeUnless fuel ends true true
          let v ← value fuel ends true
          return (k, v) :: (← blockEntries fuel)
      | .blockEnd => advance; return []
      | _ => throw .malformed

/-- The value after a key, which may be left out. -/
def value : Nat → (Token → Bool) → (block : Bool) → DraftM Nat
  | 0, _, _ => throw .malformed
  | fuel + 1, ends, block => do
      if (← peek) = .value then
        advance
        nodeUnless fuel ends block block
      else absent

/-- A key of a flow collection that was announced, and its value. -/
def flowEntry : Nat → (close : Token) → DraftM (Nat × Nat)
  | 0, _ => throw .malformed
  | fuel + 1, close => do
      advance
      let k ← nodeUnless fuel (fun t => t = .value || t = .flowItem || t = close) false false
      let v ← value fuel (fun t => t = .flowItem || t = close) false
      return (k, v)

/-- The items of a flow list, of which the first stands without a comma before it.  A key among
them begins a mapping of one entry. -/
def flowItems : Nat → (first : Bool) → DraftM (List Nat)
  | 0, _ => throw .malformed
  | fuel + 1, first => do
      if (← peek) = .flowListEnd then
        advance
        return []
      if !first then expect .flowItem
      match (← peek) with
      | .flowListEnd => advance; return []
      | .key =>
          let id ← start none ⟨.mapping, .mapping []⟩
          let entry ← flowEntry fuel .flowListEnd
          let item ← finish id (.mapping [entry])
          return item :: (← flowItems fuel false)
      | _ =>
          let item ← node fuel false false
          return item :: (← flowItems fuel false)

/-- The entries of a flow mapping. -/
def flowEntries : Nat → (first : Bool) → DraftM (List (Nat × Nat))
  | 0, _ => throw .malformed
  | fuel + 1, first => do
      if (← peek) = .flowMappingEnd then
        advance
        return []
      if !first then expect .flowItem
      match (← peek) with
      | .flowMappingEnd => advance; return []
      | .key =>
          let entry ← flowEntry fuel .flowMappingEnd
          return entry :: (← flowEntries fuel false)
      | _ =>
          let k ← node fuel false false
          let v ← absent
          return (k, v) :: (← flowEntries fuel false)

end

/-- What handles stand for by the directives before a document: at most one of them gives a
version, whose first number is one, and none gives a second meaning to a handle. -/
def directives : Nat → (versioned : Bool) → List (String × String) →
    DraftM (List (String × String))
  | 0, _, _ => throw .malformed
  | fuel + 1, versioned, handles => do
      match (← peek) with
      | .directive d =>
          advance
          match d with
          | .version major _ =>
              if versioned ∨ major ≠ 1 then throw .malformed
              directives fuel true handles
          | .handle name expansion =>
              if handles.any fun p => p.1 = name then throw .malformed
              directives fuel versioned ((name, expansion) :: handles)
          | .unknown => directives fuel versioned handles
      | _ => return handles

/-- Pass over marks for the end of a document. -/
def skipEnds : Nat → DraftM Unit
  | 0 => throw .malformed
  | fuel + 1 => do
      if (← peek) = .documentEnd then
        advance
        skipEnds fuel

/-- The only document of a text, if there is one. -/
def document (fuel : Nat) : DraftM (Option Nat) := do
  let first ← peek
  if first = .streamEnd then return none
  let explicit := match first with
    | .directive _ | .documentStart => true
    | _ => false
  let root ←
    if explicit then do
      let handles ← directives fuel false []
      expect .documentStart
      modify fun d => { d with handles := handles ++ usualHandles }
      match (← peek) with
      | .directive _ | .documentStart | .documentEnd | .streamEnd => absent
      | _ => node fuel true false
    else node fuel true false
  skipEnds fuel
  if (← peek) ≠ .streamEnd then
    discard (directives fuel false [])
    throw .malformed
  return some root

/-- The graph of a list of tokens and the number of its outermost node. -/
def ofTokens (ts : List Token) : Except Stop (Graph × Option Nat) := do
  let fuel := 4 * ts.length + 4
  let (root, draft) ← (document fuel).run ⟨⟨#[], []⟩, [], usualHandles, ts⟩
  return (draft.graph, root)

/-- The graph of a text and the number of its outermost node.  What is wrong with the tokens
that can be read comes before what keeps others from being read. -/
def ofChars (cs : List Char) : Except Fault (Graph × Option Nat) :=
  let ts := Tokens.ofChars cs
  match ofTokens ts.tokens with
  | .ok result => .ok result
  | .error .malformed => .error .malformed
  | .error .exhausted => .error (ts.fault?.getD .malformed)

end Graph

end FuzzyGates.Yaml
