import FuzzyGates.Expr.Basic
import FuzzyGates.Degree.Text
import FuzzyGates.Text.Quoted

/-!
# The two texts of an expression

`infixText` is meant for reading: operators stand between their operands.
`fullText` names every node and its fields, so that messages can show an
expression without ambiguity.
-/

namespace FuzzyGates.Expr

/-- The name of a connective's node in full text. -/
def connectiveName : Connective → String
  | .add => "Add"
  | .mult => "Mult"
  | .and => "And"
  | .or => "Or"
  | .xor => "Xor"

/-- The name of a kind of node in full text. -/
def typeName : Expr → String
  | value _ => "Value"
  | var _ => "Variable"
  | join c _ _ => connectiveName c
  | complement _ => "Complement"
  | alphaCut _ _ => "AlphaCut"
  | bareUnary _ => "UnaryExpression"
  | bareBinary _ _ => "BinaryExpression"

/-- Every node by name, with its fields. -/
def fullText : Expr → String
  | value x => "Value(value=" ++ x.text ++ ")"
  | var n => "Variable(name=" ++ Text.quoted n.text ++ ")"
  | join c l r => connectiveName c ++ "(left=" ++ fullText l ++ ", right=" ++ fullText r ++ ")"
  | complement e => "Complement(operand=" ++ fullText e ++ ")"
  | alphaCut e t => "AlphaCut(operand=" ++ fullText e ++ ", threshold=" ++ t.text ++ ")"
  | bareUnary e => "UnaryExpression(operand=" ++ fullText e ++ ")"
  | bareBinary l r => "BinaryExpression(left=" ++ fullText l ++ ", right=" ++ fullText r ++ ")"

/-- Operators between their operands; a bare unary node has only its full text. -/
def infixText : Expr → String
  | value x => x.text
  | var n => n.text
  | join c l r => "(" ++ infixText l ++ " " ++ c.symbol ++ " " ++ infixText r ++ ")"
  | complement e => "~" ++ infixText e
  | alphaCut e t => "alpha_cut(" ++ infixText e ++ ", " ++ t.text ++ ")"
  | bareUnary e => fullText (bareUnary e)
  | bareBinary l r => "(" ++ infixText l ++ " ? " ++ infixText r ++ ")"

end FuzzyGates.Expr
