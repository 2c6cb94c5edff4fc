/-!
# Days of the calendar

Days are those of the Gregorian calendar, extended to the years from 1 on.
`Date.ordinal` counts days from the first one, which is what makes moments with
different offsets comparable.
-/

namespace FuzzyGates.Calendar

/-- A number that is out of its range in a day, a time or an offset. -/
inductive Fault
  | year (n : Nat)
  | month
  | day
  | hour
  | minute
  | second
  | offset (minutes : Int)
  deriving DecidableEq, Repr

/-- Whether a year has a leap day. -/
def isLeap (year : Nat) : Bool := year % 4 = 0 && (year % 100 ≠ 0 || year % 400 = 0)

/-- The number of days of a month. -/
def daysIn (year month : Nat) : Nat :=
  if month = 2 then (if isLeap year then 29 else 28)
  else if month ∈ [4, 6, 9, 11] then 30
  else 31

/-- A day. -/
structure Date where
  year : Nat
  month : Nat
  day : Nat
  deriving DecidableEq, Repr

namespace Date

/-- The day that three numbers denote. -/
def of (year month day : Nat) : Except Fault Date :=
  if year = 0 then .error (.year year)
  else if month = 0 ∨ 12 < month then .error .month
  else if day = 0 ∨ daysIn year month < day then .error .day
  else .ok ⟨year, month, day⟩

/-- The number of days from the first day of the year 1, which has number one. -/
def ordinal (d : Date) : Nat :=
  let y := d.year - 1
  (List.range' 1 (d.month - 1)).foldl (fun n m => n + daysIn d.year m)
    (365 * y + y / 4 - y / 100 + y / 400 + d.day)

/-- Whether a day comes before another. -/
def precedes (d e : Date) : Bool := d.ordinal < e.ordinal

/-- A number with zeros before it up to a width. -/
def padded (width n : Nat) : String :=
  let ds := Nat.toDigits 10 n
  String.ofList (List.replicate (width - ds.length) '0' ++ ds)

/-- Year, month and day. -/
def text (d : Date) : String :=
  padded 4 d.year ++ "-" ++ padded 2 d.month ++ "-" ++ padded 2 d.day

/-- The day with its kind visible. -/
def fullText (d : Date) : String :=
  "datetime.date(" ++ toString d.year ++ ", " ++ toString d.month ++ ", " ++ toString d.day ++ ")"

end Date

end FuzzyGates.Calendar
