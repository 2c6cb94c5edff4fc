import FuzzyGates.Document.Keys
import FuzzyGates.Logic.Error
import FuzzyGates.Logic.Form

/-!
# Reading serialized logic

Numbers are literals and texts are variables; an expression stands for itself.
Everything else is a mapping with exactly one entry.  A node is checked first,
then the argument list of its operator, then a threshold, then the operands
from left to right; the first position that breaks its rule is reported.
-/

namespace FuzzyGates.Logic

/-- The degree of a number. -/
def decodeDegree (n : Number) : Except ReadError Degree :=
  match n.degree? with
  | some x => .ok x
  | none => .error .tooLarge

/-- The name that a variable reference holds. -/
def decodeName (path : Path) : Document → Except ReadError Name
  | .atom (.text s) =>
      match Name.ofText? s with
      | some n => .ok n
      | none => .error (.malformed path .variableName)
  | _ => .error (.malformed path .variableName)

/-- A variable reference, which may stand in a list of one. -/
def decodeReference (path : Path) : Document → Except ReadError Name
  | .list [d] => decodeName path d
  | .list _ => .error (.malformed path (.argumentCount 1))
  | d => decodeName path d

/-- The report on a mapping that has no or several entries. -/
def operatorCountError (path : Path) (keys : List Atom) : ReadError :=
  match Atom.sort keys with
  | .ok sorted =>
      if sorted.all Atom.isWritable then .malformed path (.operatorCount sorted) else .unwritable
  | .error (later, earlier) => .unordered later earlier

/-- The expression that a document at a position describes. -/
def decodeAt (path : Path) : Document → Except ReadError Expr
  | .atom (.expr e) => .ok e
  | .atom (.bool _) => .error (.malformed path .truthValue)
  | .atom (.int n) => do return .value (← decodeDegree (.int n))
  | .atom (.float x) => .ok (.value x)
  | .atom (.text s) =>
      match Name.ofText? s with
      | some n => .ok (.var n)
      | none => .error (.malformed path .emptyName)
  | .atom a => .error (.malformed path (.wrongKind a.typeName))
  | .pair a b => .error (.malformed path (.wrongKind (Document.pair a b).typeName))
  | .list items => .error (.malformed path (.wrongKind (Document.list items).typeName))
  | .set elements => .error (.malformed path (.wrongKind (Document.set elements).typeName))
  | .mapping [(key, arg)] =>
      match Form.ofKey? key with
      | none =>
          .error (if key.isWritable then .malformed path (.unknownOperator key) else .unwritable)
      | some .var => do return .var (← decodeReference (path ++ [.operator "var"]) arg)
      | some .value =>
          match arg.number? with
          | some n => do return .value (← decodeDegree n)
          | none => .error (.malformed (path ++ [.operator "value"]) .notNumber)
      | some (.apply .complement) =>
          let here := path ++ [.operator "complement"]
          match arg with
          | .list [a] => do return .complement (← decodeAt (here ++ [.operand 0]) a)
          | .list _ => .error (.malformed here (.argumentCount 1))
          | a => do return .complement (← decodeAt (here ++ [.operand 0]) a)
      | some (.apply .alphaCut) =>
          let here := path ++ [.operator "alpha_cut"]
          match arg with
          | .list [a, t] =>
              match t.number? with
              | none => .error (.malformed (here ++ [.operand 1]) .thresholdNotNumber)
              | some n => do
                  let e ← decodeAt (here ++ [.operand 0]) a
                  return .alphaCut e (← decodeDegree n)
          | _ => .error (.malformed here (.argumentCount 2))
      | some (.apply (.join c)) =>
          let here := path ++ [.operator c.tag]
          match arg with
          | .list [a, b] => do
              let l ← decodeAt (here ++ [.operand 0]) a
              let r ← decodeAt (here ++ [.operand 1]) b
              return .join c l r
          | _ => .error (.malformed here (.argumentCount 2))
  | .mapping entries => .error (operatorCountError path (entries.map Prod.fst))
termination_by structural d => d

/-- The expression that a document describes. -/
def decode (d : Document) : Except ReadError Expr := decodeAt [] d

end FuzzyGates.Logic
