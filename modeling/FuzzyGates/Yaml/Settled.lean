import FuzzyGates.Yaml.Graph
import FuzzyGates.Yaml.Scalar

/-!
# The values of the nodes of a graph

Nodes are settled from the outermost one inwards, all parts of a collection
before the parts of any of them, and each node once.  Settling a scalar finds
its value; settling the parts of a mapping first moves merged entries into it,
before its own ones, so that these win.  The keys of a mapping must be scalars.
The first fault on this way is the one that is reported.
-/

namespace FuzzyGates.Yaml

/-- A graph on the way to being settled. -/
structure Settled where
  nodes : Array Node
  /-- The values of the scalars that have been settled. -/
  values : Array (Option Atom)
  /-- The nodes that have been met. -/
  met : Array Bool
  /-- The collections whose parts have not been settled yet, the last one first. -/
  waiting : List Nat

namespace Settled

/-- Nothing is settled. -/
def start (nodes : Array Node) : Settled :=
  ⟨nodes, Array.replicate nodes.size none, Array.replicate nodes.size false, []⟩

/-- Operations on a graph on the way to being settled. -/
abbrev SettleM := StateT Settled (Except Fault)

/-- A node by its number. -/
def nodeAt (id : Nat) : SettleM Node := do return (← get).nodes[id]?.getD default

/-- Change a node. -/
def modifyNode (id : Nat) (f : Node → Node) : SettleM Unit :=
  modify fun s => { s with nodes := s.nodes.modify id f }

/-- The entries of a node that must be a mapping. -/
def entriesOf (id : Nat) : SettleM (List (Nat × Nat)) := do
  match (← nodeAt id).content with
  | .mapping entries => return entries
  | _ => throw .malformed

/-! ### Merged entries -/

/-- Pass over entries up to the first one to be merged: how many they are, and the value of that
one.  A key for the main value is an ordinary text from now on. -/
def nextMerge : List (Nat × Nat) → SettleM (Option (Nat × Nat))
  | [] => return none
  | (k, v) :: rest => do
      match (← nodeAt k).tag with
      | .merge => return some (0, v)
      | tag =>
          if tag = .main then modifyNode k fun n => { n with tag := .text }
          return (← nextMerge rest).map fun (count, v) => (count + 1, v)

/-- Merge what the entries of a mapping ask for, from a position on, `merged` being what has been
found before it.  A list of mappings is merged from its last one to its first. -/
def mergeFrom : Nat → (id position : Nat) → (merged : List (Nat × Nat)) → SettleM Unit
  | 0, _, _, _ => throw .malformed
  | fuel + 1, id, position, merged => do
      let entries ← entriesOf id
      match (← nextMerge (entries.drop position)) with
      | none =>
          let entries ← entriesOf id
          modifyNode id fun n => { n with content := .mapping (merged ++ entries) }
      | some (count, v) =>
          let position := position + count
          modifyNode id fun n => { n with content := .mapping (entries.eraseIdx position) }
          let found ← match (← nodeAt v).content with
            | .mapping _ => do
                mergeFrom fuel v 0 []
                entriesOf v
            | .list items => do
                let found ← items.mapM fun item => do
                  discard (entriesOf item)
                  mergeFrom fuel item 0 []
                  entriesOf item
                pure found.reverse.flatten
            | .scalar _ => throw .malformed
          mergeFrom fuel id position (merged ++ found)

/-- The number of entries in all mappings, and one more. -/
def entryCount (nodes : Array Node) : Nat :=
  nodes.foldl (fun n node => match node.content with
    | .mapping entries => n + entries.length
    | _ => n) 1

/-- Move merged entries into a mapping. -/
def merge (id : Nat) : SettleM Unit := do
  mergeFrom (2 * entryCount (← get).nodes) id 0 []

/-! ### Values -/

/-- The text that stands for a node: that of a scalar, or of the main value of a mapping. -/
def scalarText : Nat → Nat → SettleM String
  | 0, _ => throw .malformed
  | fuel + 1, id => do
      match (← nodeAt id).content with
      | .scalar text => return text
      | .list _ => throw .malformed
      | .mapping entries =>
          let nodes := (← get).nodes
          match entries.find? fun p => (nodes[p.1]?.getD default).tag = .main with
          | some p => scalarText fuel p.2
          | none => throw .malformed

/-- Settle a node, unless that has been done: find the value of a scalar, or let a collection
wait. -/
def settle (id : Nat) : SettleM Unit := do
  let s ← get
  if s.met[id]?.getD true then return
  let node ← nodeAt id
  set { s with met := s.met.set! id true }
  if node.tag.isCollection then modify fun s => { s with waiting := id :: s.waiting }
  else if node.tag ∈ [.merge, .main, .foreign] then throw .malformed
  else
    let text ← scalarText s.nodes.size id
    if let (.timestamp, .mapping _) := (node.tag, node.content) then throw .timestampMapping
    let value ← scalarValue node.tag text
    modify fun s => { s with values := s.values.set! id (some value) }

/-- Settle key and value of an entry. -/
def settleEntry (key value : Nat) : SettleM Unit := do
  settle key
  if (← nodeAt key).tag.isCollection then throw .malformed
  settle value

/-- Settle the parts of a collection. -/
def settleParts (id : Nat) : SettleM Unit := do
  let node ← nodeAt id
  match node.tag, node.content with
  | .list, .list items => items.forM settle
  | .mapping, .mapping _ | .set, .mapping _ =>
      merge id
      (← entriesOf id).forM fun (k, v) => settleEntry k v
  | .pairs, .list items =>
      items.forM fun item => do
        match (← entriesOf item) with
        | [(k, v)] =>
            settle k
            settle v
        | _ => throw .malformed
  | _, _ => throw .malformed

/-- Settle what waits, level by level. -/
def settleWaiting : Nat → SettleM Unit
  | 0 => return
  | fuel + 1 => do
      let level := (← get).waiting.reverse
      modify fun s => { s with waiting := [] }
      level.forM settleParts
      if level.isEmpty then return else settleWaiting fuel

/-- The values of a graph, seen from its outermost node. -/
def ofGraph (g : Graph) (root : Nat) : Except Fault Settled := do
  let act : SettleM Unit := do
    settle root
    settleWaiting (g.nodes.size + 1)
  return (← act.run (start g.nodes)).2

end Settled

end FuzzyGates.Yaml
