import FuzzyGates.Session.Basic

/-!
# Evaluating in a session

Every variable that an evaluation finds is recorded, also when the evaluation
fails later on.  An attempt reports a failure of the fuzzy logic as a value;
arguments that no operation accepts still fail.
-/

namespace FuzzyGates

/-- The result of an attempt. -/
inductive Attempt
  | succeeded (value : Degree)
  | failed (kind message : String)
  deriving DecidableEq

namespace Session

open SessionM

/-- The degree of an expression. -/
def evaluateExpr (e : Expr) : SessionM Degree := do
  let env ← reading Session.env
  (e.reads env).forM fun p => note (.resolved p.1.text p.2)
  match e.eval env with
  | .ok x => return x
  | .error err => fail (.ofEval err)

/-- The degree of what an argument stands for. -/
def evaluate (expr : Document) : SessionM Degree := do
  let e ← Expr.ofDocument expr
  evaluateExpr e

/-- The degree of the expression bound to a gate. -/
def evaluateGate (gate : Document) : SessionM Degree := do
  let scope ← Scope.ofDocument gate
  match scope, (← reading fun s => s.expressionOf? scope) with
  | .gate g, some e =>
      let x ← evaluateExpr e
      note (.evaluated g x)
      return x
  | _, _ => fail (.noExpression scope.name)

/-- What a variable is looked up under: its name, or the argument itself if it can be a key. -/
def lookupKey : Document → Except Failure Document
  | .atom (.expr (.var n)) => .ok (.ofText n.text)
  | .atom a => .ok (.atom a)
  | d => .error (.wrongKind (.key d))

/-- The degree that a gate sees under a name. -/
def testGate (gate target : Document) : SessionM Degree := do
  let scope ← Scope.ofDocument gate
  let key ← lookupKey target
  let env ← reading Session.env
  let found := match key with
    | .atom (.text name) => env.testGate? scope.name name
    | _ => none
  match found with
  | some x => return x
  | none => fail (.unbound key (some scope.name))

/-- Report a failure of the fuzzy logic instead of failing. -/
def attempt (act : SessionM Degree) : SessionM Attempt :=
  tryCatch (do return .succeeded (← act)) fun e =>
    match e.kind? with
    | some kind => return .failed kind e.message
    | none => fail e

end Session

end FuzzyGates
