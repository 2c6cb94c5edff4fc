import FuzzyGates.Config.Issue
import FuzzyGates.Expr.Eval
import FuzzyGates.Yaml.Fault

/-!
# Failures

A failure says what went wrong, and `message` words it.  The failures of the
fuzzy logic itself carry a `kind?`, under which an attempt reports them instead
of failing.  The others stem from arguments that no operation accepts.
-/

namespace FuzzyGates

/-- An argument is not the kind of thing that an operation takes. -/
inductive KindFault
  | literal (got : Document)
  | variableName (got : Document)
  | operand (owner : String) (got : Document)
  | threshold (got : Document)
  | convertible (got : Document)
  | expression (got : Document)
  | gateName (got : Document)
  | gateLike (got : Document)
  | key (got : Document)
  | order (later earlier : Atom)
  | level (got : Document)
  | logFormat (got : Document)
  | real (got : Document)

/-- The wording for two keys without an order. -/
def orderMessage : Atom → Atom → String
  | .moment _, .moment _ => "can't compare offset-naive and offset-aware datetimes"
  | .moment _, .date _ | .date _, .moment _ =>
      "can't compare datetime.datetime to datetime.date"
  | later, earlier =>
      "'<' not supported between instances of " ++ Text.quoted later.familyName ++ " and "
        ++ Text.quoted earlier.familyName

/-- The wording of a fault of kind. -/
def KindFault.message : KindFault → String
  | literal got => "Value expects a number, got " ++ got.fullText
  | variableName got => "Variable name must be a non-empty string, got " ++ got.fullText
  | operand owner got => owner ++ " operand must be an Expression, got " ++ got.typeName
  | threshold got => "AlphaCut threshold must be a number, got " ++ got.fullText
  | convertible got => "Cannot use " ++ got.fullText ++ " as an expression"
  | expression got => "Expected an Expression, got " ++ got.typeName
  | gateName got => "Gate name must be a non-empty string, got " ++ got.fullText
  | gateLike got => "Expected a Gate or non-empty gate name, got " ++ got.fullText
  | key got => "unhashable type: " ++ Text.quoted got.typeName
  | order later earlier => orderMessage later earlier
  | logFormat (.atom (.bytes _)) => "cannot use a string pattern on a bytes-like object"
  | logFormat got =>
      "expected string or bytes-like object, got " ++ Text.quoted got.typeName
  | real got => "float() argument must be a string or a real number, not " ++
      Text.quoted got.typeName
  | level got => "Level not an integer or a valid string: " ++ got.fullText

/-- An argument of the right kind is not among the accepted ones. -/
inductive ChoiceFault
  | operator (name : String)
  | setOperation (name : String)
  | missingSet (operation : String)
  | level (name : String)
  | format (text : String)

/-- The wording of a fault of choice. -/
def ChoiceFault.message : ChoiceFault → String
  | operator name => "Unknown operator: " ++ name
  | setOperation name => "Unknown operation: " ++ name
  | missingSet operation => operation.capitalize ++ " requires another set"
  | level name => "Unknown log level: " ++ name
  | format text => "Invalid format '" ++ text ++ "' for '%' style"

/-- Why an operation has no result. -/
inductive Failure
  /-- No scope that was looked at binds the name; the gate is the one that was asked. -/
  | unbound (name : Document) (gate : Option String)
  /-- No expression is bound to the gate. -/
  | noExpression (gate : String)
  /-- The target is neither a variable nor a gate. -/
  | badTarget (target : Document)
  /-- The name of the global scope stands where a gate is needed. -/
  | reservedGate
  | format (error : Logic.FormatError)
  | config (error : ConfigError)
  | wrongKind (fault : KindFault)
  | wrongChoice (fault : ChoiceFault)
  /-- A whole number is beyond every degree. -/
  | tooLarge
  | numeral (fault : Decimal.NumeralFault)
  /-- A value in a configuration text is not what its tag says. -/
  | yaml (fault : Yaml.Fault)
  /-- A program called an operation with arguments that it does not have. -/
  | miscalled (message : String)
  /-- A program gave up with a message of its own. -/
  | aborted (message : String)
  /-- No snapshot was taken under the name. -/
  | noSnapshot (slot : String)

namespace Failure

/-- The failure of an evaluation. -/
def ofEval : EvalError → Failure
  | .unbound name => unbound (.ofText name) none
  | .inoperable node => format (.inoperable node)

/-- The failure of reading logic. -/
def ofRead : Logic.ReadError → Failure
  | .malformed path reason => format (.malformed path reason)
  | .tooLarge => tooLarge
  | .unordered later earlier => wrongKind (.order later earlier)
  | .unwritable => numeral .unwritable

/-- The failure of reading a configuration text. -/
def ofYaml : Yaml.Fault → Failure
  | .malformed => config .invalidYaml
  | .numeral fault => numeral fault
  | fault => yaml fault

/-- The name under which a failure of the fuzzy logic itself is reported. -/
def kind? : Failure → Option String
  | unbound _ _ => some "variable_not_found"
  | noExpression _ => some "gate_expression_not_assigned"
  | badTarget _ => some "invalid_assignment_target"
  | reservedGate => some "reserved_gate_name"
  | format _ => some "expression_format_error"
  | config _ => some "configuration_error"
  | _ => none

/-- The wording of a failure. -/
def message : Failure → String
  | unbound name none => "Variable '" ++ name.plainText ++ "' not found in any scope"
  | unbound name (some gate) =>
      "Variable '" ++ name.plainText ++ "' not found in gate '" ++ gate ++ "' or global scope"
  | noExpression gate => "No expression assigned to gate '" ++ gate ++ "'"
  | badTarget target =>
      "Cannot assign to " ++ target.fullText ++ ": expected a variable or a gate"
  | reservedGate => "'" ++ globalScope ++ "' is reserved for the global scope"
  | format error => error.message
  | config error => error.message
  | wrongKind fault => fault.message
  | wrongChoice fault => fault.message
  | tooLarge => "int too large to convert to float"
  | numeral fault => fault.message
  | yaml fault => fault.message
  | miscalled message => message
  | aborted message => message
  | noSnapshot slot => Text.quoted slot

end Failure

end FuzzyGates
