import FuzzyGates.Log.Logger
import FuzzyGates.OrderedMap

/-!
# Configurations

A configuration seeds a session: options for logging, global degrees and, for
each gate, degrees and an expression.  Degrees are kept as they were written
until they are loaded.
-/

namespace FuzzyGates

/-- Options for logging, applied when a configuration is loaded. -/
structure LoggingOptions where
  level : Log.LevelName := .warning
  format : Option String := none
  enabled : Bool := false
  deriving DecidableEq

/-- The contents of one gate. -/
structure GateConfig where
  degrees : OrderedMap String Number
  expression : Option Expr
  deriving DecidableEq

/-- The initial contents of a session. -/
structure Config where
  logging : LoggingOptions
  globals : OrderedMap String Number
  gates : OrderedMap Gate GateConfig
  deriving DecidableEq

end FuzzyGates
