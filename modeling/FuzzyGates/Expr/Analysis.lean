import FuzzyGates.Environment
import FuzzyGates.Expr.Basic

/-!
# Analysis of expressions

An analysis describes the shape of an expression and, against an environment,
the scope from which each variable would be read.  A variable that an
expression of one gate would read from another gate's scope is a cross-gate
read.
-/

namespace FuzzyGates

/-- The shape of an expression and the sources of its variables. -/
structure Analysis where
  nodeCount : Nat
  depth : Nat
  operators : List String
  names : List String
  resolution : List (String × Option String)
  unresolved : List String
  crossGateReads : List String
  deriving DecidableEq

/-- Whether every variable has a source. -/
def Analysis.evaluable (a : Analysis) : Bool := a.unresolved.isEmpty

namespace Expr

/-- Whether a node is neither a literal nor a variable. -/
def hasOperands (e : Expr) : Bool := !e.children.isEmpty

/-- Whether a scope is a gate's and not the given one. -/
def isForeign (gate : Option String) (scope : String) : Bool :=
  scope ≠ globalScope && some scope ≠ gate

/-- The analysis of an expression, on behalf of a gate if one is given. -/
def analyze (e : Expr) (env : Option Environment) (gate : Option String) : Analysis :=
  let names := e.names.map Name.text
  let resolution := match env with
    | some env => names.map fun n => (n, env.resolveScope? n)
    | none => []
  { nodeCount := e.walk.length
    depth := e.depth
    operators := ((e.walk.filter hasOperands).map tag).eraseDups
    names := names
    resolution := resolution
    unresolved := resolution.filterMap fun p => if p.2.isNone then some p.1 else none
    crossGateReads := resolution.filterMap fun p =>
      match p.2 with
      | some scope => if isForeign gate scope then some p.1 else none
      | none => none }

end Expr

end FuzzyGates
