import FuzzyGates.Environment
import FuzzyGates.Expr.Basic

/-!
# Evaluation

Operands are evaluated from left to right.  Evaluation fails at a variable
that no scope binds and at a bare node, the latter before its operands are
looked at.  `reads` lists what an evaluation consults on its way.
-/

namespace FuzzyGates

/-- Why an expression has no degree. -/
inductive EvalError
  | unbound (name : String)
  | inoperable (node : Expr)
  deriving DecidableEq

namespace Expr

/-- The degree of an expression in an environment. -/
def eval (env : Environment) : Expr → Except EvalError Degree
  | value x => .ok x
  | var n =>
      match env.resolve? n.text with
      | some x => .ok x
      | none => .error (.unbound n.text)
  | join c l r => do
      let a ← eval env l
      let b ← eval env r
      return c.apply a b
  | complement e => do return (← eval env e).complement
  | alphaCut e t => do return (← eval env e).cut t
  | bareUnary e => .error (.inoperable (bareUnary e))
  | bareBinary l r => .error (.inoperable (bareBinary l r))

/-- What a node adds to the failure of an evaluation, its operands aside. -/
def fault? (env : Environment) : Expr → Option EvalError
  | var n => if (env.resolve? n.text).isSome then none else some (.unbound n.text)
  | e => if e.isBare then some (.inoperable e) else none

/-- The variables that an evaluation looks up with success, in order, with their degrees. -/
def reads (env : Environment) (e : Expr) : List (Name × Degree) :=
  (e.walk.takeWhile fun n => (n.fault? env).isNone).filterMap fun n =>
    n.name?.bind fun v => (env.resolve? v.text).map fun x => (v, x)

end Expr

end FuzzyGates
