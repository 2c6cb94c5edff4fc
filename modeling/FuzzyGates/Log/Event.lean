import FuzzyGates.Expr.Text
import FuzzyGates.Log.Logger

/-!
# What is logged

Every record stems from an event.  The event determines the level of the
record, the part of the library that speaks and the wording.
-/

namespace FuzzyGates.Log

/-- Something worth a record. -/
inductive Event
  | assigned (name : String) (value : Degree) (scope : String)
  | restored (globals scopes : Nat)
  | resolved (name : String) (value : Degree)
  | bound (gate : Gate) (expr : Expr)
  | evaluated (gate : Gate) (value : Degree)
  | enteredGate (gate : Gate) (ambient : Scope)
  | leftGate (gate : Gate) (ambient : Scope)
  | enteredAnonymous (saved : Nat)
  | leftAnonymous
  /-- An expression is being bound to a gate that is not the ambient one. -/
  | boundElsewhere (gate ambient : Scope)
  | loaded (globals gates : Nat)
  deriving DecidableEq

namespace Event

/-- The level of an event's record. -/
def level : Event → LevelName
  | boundElsewhere _ _ => .warning
  | loaded _ _ => .info
  | _ => .debug

/-- The part of the library that an event happens in. -/
def part : Event → String
  | assigned _ _ _ | restored _ _ => "environment"
  | resolved _ _ => "logic.evaluator"
  | bound _ _ | evaluated _ _ => "gates"
  | enteredGate _ _ | leftGate _ _ | enteredAnonymous _ | leftAnonymous => "scope"
  | boundElsewhere _ _ => "session"
  | loaded _ _ => "config"

/-- The name of the logger of an event's record. -/
def source (e : Event) : String := nameUnder (some e.part)

/-- The wording of an event's record. -/
def message : Event → String
  | assigned name value scope => "Assigned " ++ name ++ " = " ++ value.text ++ " in " ++ scope
  | restored globals scopes =>
      "Restored environment: " ++ toString globals ++ " global, " ++ toString scopes
        ++ " gate scope(s)"
  | resolved name value => "Resolved " ++ name ++ " = " ++ value.text
  | bound gate expr => "Gate " ++ gate.name ++ " := " ++ expr.infixText
  | evaluated gate value => "Gate " ++ gate.name ++ " evaluated to " ++ value.text
  | enteredGate gate ambient => "Enter gate " ++ gate.name ++ " (was " ++ ambient.name ++ ")"
  | leftGate gate ambient => "Leave gate " ++ gate.name ++ " (back to " ++ ambient.name ++ ")"
  | enteredAnonymous saved =>
      "Enter anonymous scope (" ++ toString saved ++ " binding(s) saved)"
  | leftAnonymous => "Leave anonymous scope"
  | boundElsewhere gate ambient =>
      "Assigning expression to gate " ++ gate.name ++ " while ambient gate is " ++ ambient.name
  | loaded globals gates =>
      "Loaded configuration: " ++ toString globals ++ " global(s), " ++ toString gates
        ++ " gate(s)"

end Event

/-- The logger and the records that it let through, oldest first. -/
structure Journal where
  logger : Logger
  records : List Event
  deriving DecidableEq

namespace Journal

/-- The journal of a logger that has not spoken yet. -/
def start (logger : Logger) : Journal := ⟨logger, []⟩

instance : Inhabited Journal := ⟨start .unconfigured⟩

/-- Record an event if the logger lets it through. -/
def note (j : Journal) (e : Event) : Journal :=
  if j.logger.passes e.level.severity then { j with records := j.records ++ [e] } else j

end Journal

end FuzzyGates.Log
