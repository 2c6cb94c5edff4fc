import FuzzyGates.Calendar.Date

/-!
# Moments

A moment is a time of a day, with or without the offset of its clock from that
of reference.  Moments with an offset are ordered by when they happen, those
without by what their clock shows; the two kinds have no order between them.
-/

namespace FuzzyGates.Calendar

/-- A time of a day. -/
structure Moment where
  date : Date
  hour : Nat
  minute : Nat
  second : Nat
  microsecond : Nat
  /-- The minutes by which the clock is ahead, if that is known. -/
  offset : Option Int
  deriving DecidableEq, Repr

/-- An offset is less than a day in either direction. -/
def checkOffset (minutes : Int) : Except Fault Int :=
  if minutes.natAbs < 1440 then .ok minutes else .error (.offset minutes)

/-- A span of minutes as days and seconds, of which only the days can be negative. -/
def spanText (minutes : Int) : String :=
  let days := minutes.fdiv 1440
  let seconds := (minutes.fmod 1440) * 60
  let parts := (if days = 0 then [] else ["days=" ++ toString days]) ++
    (if seconds = 0 then [] else ["seconds=" ++ toString seconds])
  "datetime.timedelta(" ++ (if parts.isEmpty then "0" else ", ".intercalate parts) ++ ")"

/-- The wording of a fault. -/
def Fault.message : Fault → String
  | year n => "year " ++ toString n ++ " is out of range"
  | month => "month must be in 1..12"
  | day => "day is out of range for month"
  | hour => "hour must be in 0..23"
  | minute => "minute must be in 0..59"
  | second => "second must be in 0..59"
  | offset minutes =>
      "offset must be a timedelta strictly between -timedelta(hours=24) and "
        ++ "timedelta(hours=24), not " ++ spanText minutes ++ "."

namespace Moment

/-- The moment of a day that numbers denote. -/
def of (date : Date) (hour minute second microsecond : Nat) (offset : Option Int) :
    Except Fault Moment :=
  if 23 < hour then .error .hour
  else if 59 < minute then .error .minute
  else if 59 < second then .error .second
  else .ok ⟨date, hour, minute, second, microsecond, offset⟩

/-- The number of microseconds from a fixed moment, by the clock of reference if the offset is
known. -/
def ticks (m : Moment) : Int :=
  let minutes : Int := ((m.date.ordinal * 24 + m.hour) * 60 + m.minute : Nat)
  ((minutes - m.offset.getD 0) * 60 + m.second) * 1000000 + m.microsecond

/-- Whether two moments happen at once. -/
def same (m n : Moment) : Bool := m.offset.isSome = n.offset.isSome && m.ticks = n.ticks

/-- Whether a moment comes before another, if they are of one kind. -/
def precedes? (m n : Moment) : Option Bool :=
  if m.offset.isSome = n.offset.isSome then some (m.ticks < n.ticks) else none

/-- Hours and minutes of an offset. -/
def offsetText (minutes : Int) : String :=
  (if minutes < 0 then "-" else "+") ++ Date.padded 2 (minutes.natAbs / 60) ++ ":" ++
    Date.padded 2 (minutes.natAbs % 60)

/-- Day, time and offset. -/
def text (m : Moment) : String :=
  m.date.text ++ " " ++ Date.padded 2 m.hour ++ ":" ++ Date.padded 2 m.minute ++ ":" ++
    Date.padded 2 m.second ++
    (if m.microsecond = 0 then "" else "." ++ Date.padded 6 m.microsecond) ++
    ((m.offset.map offsetText).getD "")

/-- An offset with its kind visible. -/
def fullOffsetText (minutes : Int) : String :=
  if minutes = 0 then "datetime.timezone.utc"
  else "datetime.timezone(" ++ spanText minutes ++ ")"

/-- The moment with its kind visible. -/
def fullText (m : Moment) : String :=
  let fine := if m.microsecond = 0 then [] else [m.microsecond]
  let low := if m.second = 0 ∧ fine.isEmpty then [] else m.second :: fine
  let numbers := [m.date.year, m.date.month, m.date.day, m.hour, m.minute] ++ low
  let zone := (m.offset.map fun o => "tzinfo=" ++ fullOffsetText o).toList
  "datetime.datetime(" ++ ", ".intercalate (numbers.map toString ++ zone) ++ ")"

end Moment

end FuzzyGates.Calendar
