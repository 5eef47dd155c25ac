/-!
# Dates and moments

Calendar dates and times of day as documents carry them. A moment may carry an offset from
universal time; two moments with offsets are compared on the universal clock.
-/

set_option autoImplicit false

namespace Uplift

/-- A day of the proleptic Gregorian calendar. -/
structure Date where
  year : Nat
  month : Nat
  day : Nat
deriving DecidableEq, Inhabited

/-- A time of day on a date, with microseconds, and the offset from universal time in seconds
when one was given. -/
structure Moment where
  date : Date
  hour : Nat
  minute : Nat
  second : Nat
  microsecond : Nat
  offset : Option Int
deriving DecidableEq, Inhabited

/-- A number in decimal, filled up with zeros on the left. -/
def zeroPadded (width value : Nat) : String :=
  let digits := toString value
  String.ofList (List.replicate (width - digits.length) '0') ++ digits

namespace Date

def isLeapYear (year : Nat) : Bool :=
  year % 4 == 0 && (year % 100 != 0 || year % 400 == 0)

def daysInMonth (year month : Nat) : Nat :=
  if month = 2 then (if isLeapYear year then 29 else 28)
  else if month = 4 ∨ month = 6 ∨ month = 9 ∨ month = 11 then 30
  else 31

/-- The number of the day, counted from the first day of year one. -/
def dayNumber (date : Date) : Nat :=
  let years := date.year - 1
  let monthDays := (List.range (date.month - 1)).map fun index => daysInMonth date.year (index + 1)
  years * 365 + years / 4 - years / 100 + years / 400 + monthDays.foldl Nat.add 0 + date.day

/-- Year, month and day, joined by hyphens. -/
def text (date : Date) : String :=
  zeroPadded 4 date.year ++ "-" ++ zeroPadded 2 date.month ++ "-" ++ zeroPadded 2 date.day

def before (first second : Date) : Bool :=
  first.dayNumber < second.dayNumber

end Date

namespace Moment

/-- Microseconds on the moment's own clock, counted from the first day of year one. -/
def localMicroseconds (moment : Moment) : Int :=
  let seconds : Nat :=
    ((moment.date.dayNumber * 24 + moment.hour) * 60 + moment.minute) * 60 + moment.second
  (seconds * 1000000 + moment.microsecond : Nat)

/-- What tells two moments apart: the universal time if an offset is known, and the time on the
moment's own clock otherwise. -/
def instant (moment : Moment) : Bool × Int :=
  match moment.offset with
  | none => (false, moment.localMicroseconds)
  | some offset => (true, moment.localMicroseconds - offset * 1000000)

def offsetText (offset : Int) : String :=
  let minutes := offset.natAbs / 60
  (if offset < 0 then "-" else "+") ++ zeroPadded 2 (minutes / 60) ++ ":"
    ++ zeroPadded 2 (minutes % 60)

/-- Date and time with a space between them, a fraction if there is one, and the offset. -/
def text (moment : Moment) : String :=
  moment.date.text ++ " " ++ zeroPadded 2 moment.hour ++ ":" ++ zeroPadded 2 moment.minute ++ ":"
    ++ zeroPadded 2 moment.second
    ++ (if moment.microsecond = 0 then "" else "." ++ zeroPadded 6 moment.microsecond)
    ++ (moment.offset.map offsetText).getD ""

end Moment

end Uplift
