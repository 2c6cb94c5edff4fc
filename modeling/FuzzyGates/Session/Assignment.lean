import FuzzyGates.Session.Evaluation

/-!
# Assignments

A value is evaluated first and then bound to a variable in one scope.  An
expression is bound to a gate as it is.  Either a binding is made or the
session stays as it was.
-/

namespace FuzzyGates.Session

open SessionM

/-- Bind a name in the environment. -/
def assignIn (name : String) (value : Degree) (scope : String) : SessionM Unit := do
  changing fun s => { s with env := s.env.assign name value scope }
  note (.assigned name value scope)

/-- The name of the variable that an argument is. -/
def targetName : Document → Except Failure Name
  | .atom (.expr (.var n)) => .ok n
  | d@(.atom (.text s)) =>
      match Name.ofText? s with
      | some n => .ok n
      | none => .error (.badTarget d)
  | d => .error (.badTarget d)

/-- The scope that an argument names as a target. -/
def targetScope (d : Document) : Except Failure Scope :=
  (Scope.ofDocument d).mapError fun _ => .badTarget d

/-- Evaluate an argument and bind the degree to a variable, in the ambient scope unless one is
named. -/
def assignValue (target expr gate : Document) : SessionM Degree := do
  let name ← targetName target
  let scope ← match gate with
    | .atom .null => reading ambient
    | d => targetScope d
  let x ← evaluate expr
  assignIn name.text x scope.name
  return x

/-- Bind an expression to a gate. -/
def bindExpr (g : Gate) (e : Expr) : SessionM Unit := do
  changing fun s => { s with registry := s.registry.insert g e }
  note (.bound g e)

/-- Bind an argument that must be an expression to a gate. -/
def register (gate expr : Document) : SessionM Unit := do
  let scope ← Scope.ofDocument gate
  let g ← scope.toGate
  match expr with
  | .atom (.expr e) => bindExpr g e
  | d => fail (.wrongKind (.expression d))

/-- Bind what an argument stands for to a gate, with a warning unless it is the ambient one. -/
def assignExpression (gate expr : Document) : SessionM Unit := do
  let scope ← targetScope gate
  let here ← reading ambient
  if scope ≠ here then note (.boundElsewhere scope here)
  let e ← Expr.ofDocument expr
  let g ← scope.toGate
  bindExpr g e

/-- Assign to a gate or to a variable, whichever the target is. -/
def assign (target expr : Document) : SessionM (Option Degree) :=
  match target with
  | .atom (.gate _) => do
      assignExpression target expr
      return none
  | .atom (.expr (.var _)) | .atom (.text _) => do
      return some (← assignValue target expr (.atom .null))
  | d => fail (.badTarget d)

/-- Drop all bindings, expressions and gate blocks. -/
def reset : SessionM Unit := changing fun _ => fresh

end FuzzyGates.Session
