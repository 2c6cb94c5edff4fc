import FuzzyGates.Failure

/-!
# Building expressions from arguments of any kind

A convertible argument is an expression already, a number, which becomes a
literal, or a text, which becomes a variable.  The strict constructors take
expressions only and check their operands from left to right before anything
else; the others convert their operands first.
-/

namespace FuzzyGates.Expr

/-- The degree of a number. -/
def degreeOf (n : Number) : Except Failure Degree :=
  match n.degree? with
  | some x => .ok x
  | none => .error .tooLarge

/-- A literal from a number. -/
def valueOf (d : Document) : Except Failure Expr :=
  match d.number? with
  | some n => do return .value (← degreeOf n)
  | none => .error (.wrongKind (.literal d))

/-- A variable from a non-empty text. -/
def varOf : Document → Except Failure Expr
  | d@(.atom (.text s)) =>
      match Name.ofText? s with
      | some n => .ok (.var n)
      | none => .error (.wrongKind (.variableName d))
  | d => .error (.wrongKind (.variableName d))

/-- The expression that an argument stands for. -/
def ofDocument (d : Document) : Except Failure Expr :=
  match d with
  | .atom (.expr e) => .ok e
  | .atom (.text _) => varOf d
  | d => if d.number?.isSome then valueOf d else .error (.wrongKind (.convertible d))

/-- An operand, which must be an expression. -/
def operand (owner : String) : Document → Except Failure Expr
  | .atom (.expr e) => .ok e
  | d => .error (.wrongKind (.operand owner d))

/-- The threshold of an alpha cut, which must be a number. -/
def threshold (d : Document) : Except Failure Degree :=
  match d.number? with
  | some n => degreeOf n
  | none => .error (.wrongKind (.threshold d))

/-- A connective over two expressions. -/
def strictJoin (c : Connective) (left right : Document) : Except Failure Expr := do
  let l ← operand (connectiveName c) left
  let r ← operand (connectiveName c) right
  return .join c l r

/-- A connective over two convertible arguments. -/
def joinOf (c : Connective) (left right : Document) : Except Failure Expr := do
  let l ← ofDocument left
  let r ← ofDocument right
  return .join c l r

/-- The complement of an expression. -/
def strictComplement (d : Document) : Except Failure Expr := do
  return .complement (← operand "Complement" d)

/-- The complement of a convertible argument. -/
def complementOf (d : Document) : Except Failure Expr := do
  return .complement (← ofDocument d)

/-- The cut of an expression, at zero unless a threshold is given. -/
def strictCut (d : Document) (t : Document := .atom (.float 0.0)) : Except Failure Expr := do
  let e ← operand "AlphaCut" d
  return .alphaCut e (← threshold t)

/-- The cut of a convertible argument. -/
def cutOf (d t : Document) : Except Failure Expr := do
  let e ← ofDocument d
  return .alphaCut e (← threshold t)

/-- A bare node with one operand. -/
def strictBareUnary (d : Document) : Except Failure Expr := do
  return .bareUnary (← operand "UnaryExpression" d)

/-- A bare node with two operands. -/
def strictBareBinary (left right : Document) : Except Failure Expr := do
  let l ← operand "BinaryExpression" left
  let r ← operand "BinaryExpression" right
  return .bareBinary l r

end FuzzyGates.Expr
