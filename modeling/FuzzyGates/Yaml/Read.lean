import FuzzyGates.Yaml.Settled

/-!
# The document of a text

A text holds one document or none, which is null.  A repeated key keeps its
first place and takes the last value.  The undefined number that its own word
stands for is one and the same wherever it occurs, while others are keys apart
unless they come from one node.  A node that is a part of itself is unfolded a
few times.
-/

namespace FuzzyGates.Yaml

namespace Settled

/-- Where an atom comes from, as far as that tells undefined numbers apart. -/
def origin (s : Settled) (id : Nat) : Option Nat :=
  match s.nodes[id]? with
  | some ⟨.fraction, .scalar text⟩ => if isUndefinedWord text then none else some id
  | _ => some id

/-- Put an entry into a mapping, given the origin of its key. -/
def bind (origin : Option Nat) (key : Atom) (value : Document) :
    List (Option Nat × Atom × Document) → List (Option Nat × Atom × Document)
  | [] => [(origin, key, value)]
  | (o, k, v) :: rest =>
      if o = origin ∨ k.same key then (o, k, value) :: rest
      else (o, k, v) :: bind origin key value rest

/-- The document of a node, given those of its parts. -/
def documentOf (s : Settled) (part : Nat → Document) (id : Nat) : Document :=
  let bound (entries : List (Nat × Nat)) : List (Atom × Document) :=
    (entries.foldl (fun es p =>
      match s.values[p.1]?.join with
      | some key => bind (s.origin p.1) key (part p.2) es
      | none => es) []).map Prod.snd
  match s.values[id]?.join, s.nodes[id]? with
  | some a, _ => .atom a
  | none, some ⟨.list, .list items⟩ => .list (items.map part)
  | none, some ⟨.mapping, .mapping entries⟩ => .mapping (bound entries)
  | none, some ⟨.set, .mapping entries⟩ => .set ((bound entries).map Prod.fst)
  | none, some ⟨.pairs, .list items⟩ => .list (items.map fun item =>
      match s.nodes[item]?.map Node.content with
      | some (.mapping [(k, v)]) => .pair (part k) (part v)
      | _ => .atom .null)
  | none, _ => .atom .null

/-- The documents of all nodes, given earlier versions of them. -/
def unfold (s : Settled) (ended : List Nat) (documents : Array Document) : Array Document :=
  ended.foldr (fun id ds => ds.set! id (s.documentOf (fun i => ds[i]?.getD default) id)) documents

/-- The document of a node; `ended` lists parts after what they are parts of, where possible. -/
def document (s : Settled) (ended : List Nat) (root : Nat) : Document :=
  let documents := (List.range 4).foldl (fun ds _ => s.unfold ended ds)
    (Array.replicate s.nodes.size default)
  documents[root]?.getD default

end Settled

/-- The document that a text without surrogates holds. -/
def read (text : String) : Except Fault Document := do
  let some cs := Text.chars? text | throw .malformed
  match (← Graph.ofChars cs) with
  | (_, none) => return .atom .null
  | (graph, some root) => return (← Settled.ofGraph graph root).document graph.ended root

end FuzzyGates.Yaml
