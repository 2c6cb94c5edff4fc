import FuzzyGates.Failure

/-!
# Arguments that stand for gates

Making a gate takes a text.  Naming a scope takes a gate or a text, and the
global scope can be named; where a gate is needed it is refused afterwards.
-/

namespace FuzzyGates

/-- The gate that a text names. -/
def Gate.ofDocument : Document → Except Failure Gate
  | d@(.atom (.text s)) =>
      match Scope.ofName? s with
      | some (.gate g) => .ok g
      | some .global => .error .reservedGate
      | none => .error (.wrongKind (.gateName d))
  | d => .error (.wrongKind (.gateName d))

/-- The scope that a gate or a text names. -/
def Scope.ofDocument : Document → Except Failure Scope
  | .atom (.gate g) => .ok (.gate g)
  | d@(.atom (.text s)) =>
      match Scope.ofName? s with
      | some scope => .ok scope
      | none => .error (.wrongKind (.gateLike d))
  | d => .error (.wrongKind (.gateLike d))

/-- The gate whose scope it is. -/
def Scope.toGate : Scope → Except Failure Gate
  | .gate g => .ok g
  | .global => .error .reservedGate

end FuzzyGates
