import FuzzyGates.Config.Basic
import FuzzyGates.Decimal.Numeral
import FuzzyGates.Logic.Decode

/-!
# Checking configuration data

A check yields a value or the list of everything that is wrong, in the order in
which the parts are looked at: the known fields of a record, then its other
keys; in a mapping each key before its value.  Where a text is expected, bytes that
encode one will do, except as keys of a record.  A text with surrogates will do
too, except as a key of a record, of which nothing else is then said, and as a
truth value.  Only a whole number too large for a degree and keys that cannot
be listed in order end a check at once.
-/

namespace FuzzyGates.Config

/-- A value, or the issues found instead. -/
abbrev Checked (α : Type) := Except (List Issue) α

/-- One issue at a place. -/
def issue (place : List Place) (rule : Rule) : Checked α := .error [⟨place, rule⟩]

/-- Both values, or the issues of either. -/
def Checked.both (a : Checked α) (b : Checked β) : Checked (α × β) :=
  match a, b with
  | .ok x, .ok y => .ok (x, y)
  | .error is, .ok _ => .error is
  | .ok _, .error js => .error js
  | .error is, .error js => .error (is ++ js)

/-- The values of a list of checks, or the issues of all. -/
def Checked.all : List (Checked α) → Checked (List α)
  | [] => .ok []
  | c :: rest => (Checked.both c (all rest)).map fun p => p.1 :: p.2

/-- Whether a whole number fits into a signed word of 64 bits. -/
def fitsWord (n : Int) : Bool := -9223372036854775808 ≤ n && n < 9223372036854775808

/-- The digits of a whole number, unless there are too many to write. -/
def wideText (n : Int) : String :=
  if Decimal.isWritable n then toString n else "<unprintable int object>"

/-- How a key is named in a place. -/
def placeOf : Atom → Place
  | .text s => .key (Text.shown s)
  | .int n => if fitsWord n then .number n else .key (wideText n)
  | .bool b => .number (if b then 1 else 0)
  | a => .key a.fullText

/-- A degree, which is a number and no truth value. -/
def degree (place : List Place) (d : Document) : Checked Number :=
  match d.number? with
  | some n => .ok n
  | none => .error [⟨place ++ [.key "int"], .integer⟩, ⟨place ++ [.key "float"], .number⟩]

/-- A text, which bytes may encode. -/
def text (place : List Place) : Atom → Checked String
  | .text s => .ok s
  | .bytes bs =>
      match Text.decodeBytes? bs with
      | some s => .ok s
      | none => issue place .readableText
  | _ => issue place .text

/-- A key, which must be a text. -/
def textKey (place : List Place) (a : Atom) : Checked String :=
  text (place ++ [placeOf a, .key "[key]"]) a

/-- A mapping with text keys whose values pass a check. -/
def mappingOf (check : List Place → Document → Except Failure (Checked α)) (place : List Place) :
    Document → Except Failure (Checked (OrderedMap String α))
  | .mapping entries => do
      let checked ← entries.mapM fun p => do
        let value ← check (place ++ [placeOf p.1]) p.2
        return (textKey place p.1).both value
      return (Checked.all checked).map .ofList
  | _ => return issue place .mapping

/-- The issues of the keys of a record that name none of its fields. -/
def strayKeys (place : List Place) (fields : List String) (entries : List (Atom × Document)) :
    Checked Unit :=
  let issues := entries.filterMap fun p =>
    match p.1 with
    | .text s => if s ∈ fields then none else some ⟨place ++ [placeOf p.1], .unknownField⟩
    | a => some (Issue.mk (place ++ [placeOf a]) .fieldNotText)
  if issues.isEmpty then .ok () else .error issues

/-- Whether an atom is a text with surrogates. -/
def hasSurrogate : Atom → Bool
  | .text s => (Text.chars? s).isNone
  | _ => false

/-- A record whose known fields have been checked.  A key with surrogates is the only thing that
is reported. -/
def closed (place : List Place) (fields : List String) (entries : List (Atom × Document))
    (known : Checked α) : Checked α :=
  match entries.find? fun p => hasSurrogate p.1 with
  | some p => issue (place ++ [placeOf p.1]) .readableText
  | none => (known.both (strayKeys place fields entries)).map Prod.fst

/-- The value of a field that may be left out. -/
def optional (default : α) (check : List Place → Document → Except Failure (Checked α))
    (place : List Place) (entries : List (Atom × Document)) (field : String) :
    Except Failure (Checked α) :=
  match Document.field? entries field with
  | some d => check (place ++ [.key field]) d
  | none => return .ok default

/-- A field that must be a text. -/
def textField (place : List Place) : Document → Checked String
  | .atom a => text place a
  | _ => issue place .text

/-- The name of a log level. -/
def levelField (place : List Place) (d : Document) : Checked Log.LevelName := do
  let s ← textField place d
  match Log.LevelName.ofText? s with
  | some l => return l
  | none => issue place (.rejected (.unknownLevel s))

/-- A log format, or none. -/
def formatField (place : List Place) : Document → Checked (Option String)
  | .atom .null => .ok none
  | d => (textField place d).map some

/-- The words that mean yes, and those that mean no, in any case. -/
def truthWords : List (String × Bool) :=
  [("1", true), ("on", true), ("t", true), ("true", true), ("y", true), ("yes", true),
   ("0", false), ("off", false), ("f", false), ("false", false), ("n", false), ("no", false)]

/-- The truth value of a whole number. -/
def truthOfInt (place : List Place) (n : Int) : Checked Bool :=
  if n = 0 then .ok false
  else if n = 1 then .ok true
  else if fitsWord n then issue place .readableTruth
  else issue place .truth

/-- Whether a number has no fraction and lies inside the range of a signed word of 64 bits. -/
def isWhole (x : Float) : Bool :=
  ((Decimal.Binary64.ofFloat? x).any Decimal.Binary64.isWhole) &&
    -9223372036854775808.0 < x && x < 9223372036854775808.0

/-- The truth value of a number that may have a fraction. -/
def truthOfFloat (place : List Place) (x : Float) : Checked Bool :=
  if x == 0.0 then .ok false
  else if x == 1.0 then .ok true
  else if isWhole x then issue place .readableTruth
  else issue place .truth

/-- The truth value of a word. -/
def truthOfWord (place : List Place) (s : String) : Checked Bool :=
  match truthWords.find? fun p => p.1 = s.toLower with
  | some p => .ok p.2
  | none => issue place .readableTruth

/-- A truth value: given as such, as a number or as a word, which bytes may encode. -/
def truthField (place : List Place) : Document → Checked Bool
  | .atom (.bool b) => .ok b
  | .atom (.text s) =>
      if hasSurrogate (.text s) then issue place .readableText else truthOfWord place s
  | .atom (.bytes bs) =>
      match Text.decodeBytes? bs with
      | some s => truthOfWord place s
      | none => issue place .readableTruth
  | .atom (.int n) => truthOfInt place n
  | .atom (.float x) => truthOfFloat place x
  | _ => issue place .truth

/-- The options for logging. -/
def loggingField (place : List Place) : Document → Except Failure (Checked LoggingOptions)
  | .mapping entries => do
      let level ← optional .warning (fun p d => .ok (levelField p d)) place entries "level"
      let format ← optional none (fun p d => .ok (formatField p d)) place entries "format"
      let enabled ← optional false (fun p d => .ok (truthField p d)) place entries "enabled"
      return closed place ["level", "format", "enabled"] entries
        (((level.both format).both enabled).map fun ((l, f), e) => ⟨l, f, e⟩)
  | _ => return issue place (.record "LoggingConfig")

/-- An expression in serialized form, or none. -/
def expressionField (place : List Place) : Document → Except Failure (Checked (Option Expr))
  | .atom .null => return .ok none
  | d =>
      match Logic.decode d with
      | .ok e => return .ok (some e)
      | .error (.malformed path reason) => return issue place (.rejected (.badLogic path reason))
      | .error .unwritable => return issue place (.rejected .unwritableKey)
      | .error e => .error (.ofRead e)

/-- The contents of a gate. -/
def gateField (place : List Place) : Document → Except Failure (Checked GateConfig)
  | .mapping entries => do
      let degrees ← optional ∅ (mappingOf fun p d => .ok (degree p d)) place entries "variables"
      let expression ← optional none expressionField place entries "expression"
      return closed place ["variables", "expression"] entries
        ((degrees.both expression).map fun (v, e) => ⟨v, e⟩)
  | _ => return issue place (.record "GateConfig")

/-- The same contents under gates, if every name can be one; an empty name is reported first. -/
def nameGates (place : List Place) (gates : OrderedMap String GateConfig) :
    Checked (OrderedMap Gate GateConfig) :=
  if "" ∈ gates.keys then issue place (.rejected .emptyGateName)
  else
    match gates.entries.mapM fun p => (Gate.ofName? p.1).map fun g => (g, p.2) with
    | some entries => .ok (.ofList entries)
    | none => issue place (.rejected .reservedGateName)

/-- All gates. -/
def gatesField (place : List Place) (d : Document) :
    Except Failure (Checked (OrderedMap Gate GateConfig)) := do
  let gates ← mappingOf gateField place d
  return gates.bind (nameGates place)

/-- A whole configuration. -/
def check : Document → Except Failure (Checked Config)
  | .mapping entries => do
      let logging ← optional {} loggingField [] entries "logging"
      let globals ← optional ∅ (mappingOf fun p d => .ok (degree p d)) [] entries "globals"
      let gates ← optional ∅ gatesField [] entries "gates"
      return closed [] ["logging", "globals", "gates"] entries
        (((logging.both globals).both gates).map fun ((l, g), gs) => ⟨l, g, gs⟩)
  | _ => return issue [] (.record "SessionConfig")

/-- The configuration that a document describes.  A document without content describes the
empty one. -/
def ofDocument (d : Document) : Except Failure Config := do
  match ← check (if d.isVoid then .mapping [] else d) with
  | .ok config => return config
  | .error issues => .error (.config (.schema issues))

end FuzzyGates.Config
