/-!
# Names of log levels

Levels are numbers; eight names stand for six of them.  Names are read without
regard to case.  A truth value can stand for the number one or zero, and is
then kept as it was given.
-/

namespace FuzzyGates.Log

/-- A log level. -/
inductive Level
  | number (n : Int)
  | flag (b : Bool)
  deriving DecidableEq, Repr

/-- The number of a level. -/
def Level.severity : Level → Int
  | number n => n
  | flag b => if b then 1 else 0

/-- The name of a log level. -/
inductive LevelName
  | critical | fatal | error | warn | warning | info | debug | notset
  deriving DecidableEq, Repr

namespace LevelName

/-- All names. -/
def all : List LevelName := [critical, fatal, error, warn, warning, info, debug, notset]

/-- The spelling of a name. -/
def text : LevelName → String
  | critical => "CRITICAL"
  | fatal => "FATAL"
  | error => "ERROR"
  | warn => "WARN"
  | warning => "WARNING"
  | info => "INFO"
  | debug => "DEBUG"
  | notset => "NOTSET"

/-- The number of a level. -/
def severity : LevelName → Int
  | critical | fatal => 50
  | error => 40
  | warn | warning => 30
  | info => 20
  | debug => 10
  | notset => 0

/-- The upper case of a letter as far as it lies in ASCII, which besides the small ASCII
letters only those of the dotless i and the long s do. -/
def upper (c : Char) : Char :=
  if c = 'ı' then 'I' else if c = 'ſ' then 'S' else c.toUpper

/-- The name that a text spells, in any case. -/
def ofText? (s : String) : Option LevelName :=
  all.find? fun l => l.text.toList = s.toList.map upper

end LevelName

end FuzzyGates.Log
