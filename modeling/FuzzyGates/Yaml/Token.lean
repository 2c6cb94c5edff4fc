import FuzzyGates.Yaml.Fault

/-!
# Tokens

The structure of a text is a list of tokens.  Those of block collections are
derived from the indentation and stand for no characters of their own.
-/

namespace FuzzyGates.Yaml

/-- A line before a document that says how to read it. -/
inductive Directive
  | version (major minor : Nat)
  /-- From here on a handle stands for the beginning of a tag. -/
  | handle (name expansion : String)
  | unknown
  deriving DecidableEq, Repr

/-- A tag as it is written: the rest of a tag that begins as its handle says, or a whole one. -/
structure TagText where
  handle : Option String
  suffix : String
  deriving DecidableEq, Repr

/-- A unit of structure. -/
inductive Token
  | directive (d : Directive)
  | documentStart
  | documentEnd
  | streamEnd
  | blockList
  | blockMapping
  | blockEnd
  | flowListStart
  | flowListEnd
  | flowMappingStart
  | flowMappingEnd
  | blockItem
  | flowItem
  | key
  | value
  | anchor (name : String)
  | reference (name : String)
  | tag (t : TagText)
  | scalar (text : String) (plain : Bool)
  deriving DecidableEq, Repr

/-- The tokens at the beginning of a text.  If they are not all, the fault is what keeps the
others from being read. -/
structure Tokens where
  tokens : List Token
  fault? : Option Fault

end FuzzyGates.Yaml
