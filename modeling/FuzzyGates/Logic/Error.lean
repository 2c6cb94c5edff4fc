import FuzzyGates.Logic.Path
import FuzzyGates.Document.Text

/-!
# What can be wrong with serialized logic

A `Reason` is the local rule that a position breaks.  A `FormatError` is a
reason at a position, or a node for which there is no serialized form or no
operator.
-/

namespace FuzzyGates.Logic

/-- The local rule that a position breaks. -/
inductive Reason
  | truthValue
  | emptyName
  | wrongKind (typeName : String)
  | operatorCount (sortedKeys : List Atom)
  | unknownOperator (key : Atom)
  | variableName
  | notNumber
  | argumentCount (expected : Nat)
  | thresholdNotNumber

/-- The wording of a rule. -/
def Reason.message : Reason → String
  | truthValue => "booleans are not fuzzy values"
  | emptyName => "empty variable name"
  | wrongKind t => "expected number, string or object, got " ++ t
  | operatorCount keys =>
      "expression object must have exactly one operator, got "
        ++ (Document.list (keys.map Document.atom)).fullText
  | unknownOperator key => "unknown operator '" ++ key.plainText ++ "'"
  | variableName => "variable name must be a non-empty string"
  | notNumber => "expected a number"
  | argumentCount n => "expected a list of " ++ toString n ++ " argument(s)"
  | thresholdNotNumber => "threshold must be a number"

/-- Why logic cannot be read, written or evaluated. -/
inductive FormatError
  | malformed (path : Path) (reason : Reason)
  | unwritable (node : Expr)
  | inoperable (node : Expr)

/-- The wording of a format error. -/
def FormatError.message : FormatError → String
  | malformed path reason => Path.text path ++ ": " ++ reason.message
  | unwritable node => "Cannot serialize " ++ node.fullText
  | inoperable node =>
      "Cannot evaluate node " ++ node.fullText ++ ": unknown operator " ++ Text.quoted node.tag

/-- Why a document could not be read as logic. -/
inductive ReadError
  | malformed (path : Path) (reason : Reason)
  /-- A whole number is beyond every degree. -/
  | tooLarge
  /-- The keys to be listed in a message have no order. -/
  | unordered (later earlier : Atom)
  /-- A key to be named in a message has no text. -/
  | unwritable

end FuzzyGates.Logic
