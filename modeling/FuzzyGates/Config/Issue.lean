import FuzzyGates.Logic.Error

/-!
# What can be wrong with a configuration

Checking a configuration collects issues, each with the place where it was
found.  A `ConfigError` is a list of issues, or the reason why there was
nothing to check.
-/

namespace FuzzyGates

/-- A step towards a place in configuration data. -/
inductive Place
  | key (s : String)
  | number (n : Int)
  deriving DecidableEq

/-- Why a value of the right kind is refused. -/
inductive Rejection
  | unknownLevel (level : String)
  | emptyGateName
  | reservedGateName
  | badLogic (path : Logic.Path) (reason : Logic.Reason)
  /-- A key to be named in a message has no text. -/
  | unwritableKey

/-- The wording of a rejection. -/
def Rejection.message : Rejection → String
  | unknownLevel level => "unknown log level '" ++ level ++ "'"
  | emptyGateName => "gate names must be non-empty"
  | reservedGateName =>
      "'" ++ globalScope ++ "' is reserved; put global variables under 'globals'"
  | badLogic path reason => (Logic.FormatError.malformed path reason).message
  | unwritableKey => Decimal.NumeralFault.unwritable.message

/-- The rule that a value breaks. -/
inductive Rule
  | unknownField
  | fieldNotText
  | mapping
  | record (name : String)
  | integer
  | number
  | text
  | readableText
  | readableTruth
  | truth
  | rejected (why : Rejection)

namespace Rule

/-- The short name of a rule. -/
def tag : Rule → String
  | unknownField => "extra_forbidden"
  | fieldNotText => "invalid_key"
  | mapping => "dict_type"
  | record _ => "model_type"
  | integer => "int_type"
  | number => "float_type"
  | text => "string_type"
  | readableText => "string_unicode"
  | readableTruth => "bool_parsing"
  | truth => "bool_type"
  | rejected _ => "value_error"

/-- The wording of a broken rule. -/
def message : Rule → String
  | unknownField => "Extra inputs are not permitted"
  | fieldNotText => "Keys should be strings"
  | mapping => "Input should be a valid dictionary"
  | record name => "Input should be a valid dictionary or instance of " ++ name
  | integer => "Input should be a valid integer"
  | number => "Input should be a valid number"
  | text => "Input should be a valid string"
  | readableText =>
      "Input should be a valid string, unable to parse raw data as a unicode string"
  | readableTruth => "Input should be a valid boolean, unable to interpret input"
  | truth => "Input should be a valid boolean"
  | rejected why => "Value error, " ++ Text.shown why.message

end Rule

/-- A broken rule and its place. -/
structure Issue where
  place : List Place
  rule : Rule

/-- Why a configuration is refused. -/
inductive ConfigError
  | schema (issues : List Issue)
  | notMapping
  | invalidYaml
  | unreadable

/-- The wording of a refusal. -/
def ConfigError.message : ConfigError → String
  | schema issues =>
      "Invalid session configuration: " ++ toString issues.length ++
        (if issues.length = 1 then " validation error" else " validation errors") ++
        " for SessionConfig"
  | notMapping => "Session configuration must be a mapping"
  | invalidYaml => "Invalid YAML"
  | unreadable => "Cannot read"

end FuzzyGates
