import FuzzyGates.Document.Basic

/-!
# The operators of serialized logic

Serialized logic is a mapping with one entry, whose key names what the value
is: a variable, a literal or the operands of an operator.  Some operators have
further spellings.
-/

namespace FuzzyGates.Logic

/-- What the key of a mapping announces. -/
inductive Form
  | value
  | var
  | apply (o : Operator)
  deriving DecidableEq, Repr

namespace Form

/-- All forms. -/
def all : List Form := .value :: .var :: Operator.all.map .apply

/-- The canonical spelling of a form. -/
def tag : Form → String
  | value => "value"
  | var => "var"
  | apply o => o.tag

end Form

/-- Further spellings of operators. -/
def aliases : List (String × String) :=
  [("!", "complement"), ("not", "complement"), ("+", "add"), ("*", "mult"), ("min", "and"),
   ("max", "or"), ("alphaCut", "alpha_cut"), ("multi", "mult")]

/-- The canonical spelling of an operator. -/
def canonical (spelling : String) : String :=
  match aliases.find? fun p => p.1 = spelling with
  | some p => p.2
  | none => spelling

/-- The form that a key announces. -/
def Form.ofKey? : Atom → Option Form
  | .text s => all.find? fun f => f.tag = canonical s
  | _ => none

end FuzzyGates.Logic
