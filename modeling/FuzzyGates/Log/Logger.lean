import FuzzyGates.Log.Format
import FuzzyGates.Log.Level

/-!
# The logger and its handlers

There is one logger for the whole library.  Applications may hang handlers of
their own on it; configuring adds one handler that the library owns, or changes
that one if it is there already.
-/

namespace FuzzyGates.Log

/-- The name of the logger. -/
def loggerName : String := "backend.fuzzylogic"

/-- The name of the logger under which a part of an application logs. -/
def nameUnder : Option String → String
  | none => loggerName
  | some name =>
      if name = "" then loggerName
      else if loggerName.isPrefixOf name then name
      else loggerName ++ "." ++ name

/-- Where records go. -/
structure Handler where
  /-- The handler was put there by configuring. -/
  own : Bool
  level : Level
  format : Option String
  deriving DecidableEq, Repr

/-- The level from which on records pass, and where they go. -/
structure Logger where
  level : Level
  handlers : List Handler
  deriving DecidableEq, Repr

namespace Logger

/-- The logger that nothing has configured. -/
def unconfigured : Logger := ⟨.number 0, []⟩

instance : Inhabited Logger := ⟨unconfigured⟩

/-- The level from which on records pass; a logger of level zero takes over that of warnings. -/
def threshold (l : Logger) : Int :=
  if l.level.severity = 0 then LevelName.warning.severity else l.level.severity

/-- Whether a record of a level passes. -/
def passes (l : Logger) (severity : Int) : Bool := l.threshold ≤ severity

/-- Change the first own handler, or add a new one, changed likewise. -/
def withOwn (f : Handler → Handler) : List Handler → List Handler
  | [] => [f ⟨true, .number 0, none⟩]
  | h :: rest => if h.own then f h :: rest else h :: withOwn f rest

theorem foreign_withOwn (f : Handler → Handler) (hf : ∀ h : Handler, h.own → (f h).own)
    (hs : List Handler) :
    (withOwn f hs).filter (fun h => !h.own) = hs.filter fun h => !h.own := by
  induction hs with
  | nil => simp [withOwn, hf]
  | cons h rest ih =>
      by_cases ho : h.own = true
      · simp [withOwn, ho, hf h ho]
      · simp [withOwn, ho, ih]

end Logger

/-- The level that a document gives: by name, as a whole number or as a truth value. -/
def levelOf : Document → Except Failure Level
  | .atom (.text s) =>
      match LevelName.ofText? s with
      | some l => .ok (.number l.severity)
      | none => .error (.wrongChoice (.level s))
  | .atom (.int n) => .ok (.number n)
  | .atom (.bool b) => .ok (.flag b)
  | d => .error (.wrongKind (.level d))

/-- Give the logger a level and a handler of its own with that level and a format.  The level is
looked up before anything changes; a format without fields, or one that is no text, is found out
only after the level of logger and handler have been set, and leaves the handler's former format
in place. -/
def configure (level format : Document) (l : Logger) : Except Failure Unit × Logger :=
  match levelOf level with
  | .error e => (.error e, l)
  | .ok level =>
      let levelled : Logger :=
        ⟨level, Logger.withOwn (fun h => { h with level := level }) l.handlers⟩
      match formatOf format with
      | .error e => (.error e, levelled)
      | .ok format =>
          let withFormat := fun h : Handler => { h with format := some format }
          (.ok (), { levelled with handlers := Logger.withOwn withFormat levelled.handlers })

end FuzzyGates.Log
