import FuzzyGates.Document.Equality
import FuzzyGates.Logic.Encode
import FuzzyGates.Session.Basic

/-!
# Exports

An export holds what a configuration holds: the global bindings, and for every
gate its variables and its expression in serialized form.  Gates with a scope
come first, in the order of their scopes, then those with an expression only.
-/

namespace FuzzyGates

/-- The variables of a gate and its expression in serialized form. -/
structure GateExport where
  degrees : Bindings
  logic : Option Document
  deriving DecidableEq

/-- The contents of a session, apart from its gate blocks. -/
structure Export where
  globals : Bindings
  gates : OrderedMap String GateExport
  deriving DecidableEq

namespace Export

/-- Bindings as a document. -/
def bindingsDocument (b : Bindings) : Document :=
  .mapping (b.entries.map fun p => (.text p.1, .atom (.float p.2)))

/-- A gate as a document. -/
def gateDocument (g : GateExport) : Document :=
  .mapping ((.text "variables", bindingsDocument g.degrees) ::
    match g.logic with
    | some d => [(.text "expression", d)]
    | none => [])

/-- The export as a document. -/
def toDocument (e : Export) : Document :=
  .mapping [(.text "globals", bindingsDocument e.globals),
    (.text "gates", .mapping (e.gates.entries.map fun p => (.text p.1, gateDocument p.2)))]

end Export

namespace Session

/-- The serialized forms of all gate expressions. -/
def registryLogic (s : Session) : Except Logic.FormatError (List (Gate × Document)) :=
  s.registry.entries.mapM fun p => do return (p.1, ← Logic.encode p.2)

/-- The export of a session; an expression without a serialized form prevents it. -/
def exported (s : Session) : Except Logic.FormatError Export := do
  let logic ← s.registryLogic
  let logicOf (name : String) : Option Document :=
    (logic.find? fun p => p.1.name = name).map Prod.snd
  let withScope := s.env.scopes.mapEntries fun name b => GateExport.mk b (logicOf name)
  let gates := logic.foldl (fun m p =>
    if m.contains p.1.name then m else m.insert p.1.name ⟨∅, some p.2⟩) withScope
  return ⟨s.env.globals, gates⟩

end Session

end FuzzyGates
