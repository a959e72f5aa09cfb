/-!
# Instants

An instant is a civil date and time of day in coordinated universal time, to the nanosecond.  A
second may be numbered sixty, which is how a leap second is written.  Every instant is a possible
one: the type carries the proof that its month has that day, and so on.

Times of other zones differ from universal time by whole minutes and by less than a day, so moving a
reading to universal time changes the minute of the day and at most steps to a neighbouring day.
-/

namespace Workflow

/-- Whether February of this year has twenty-nine days. -/
def isLeapYear (year : Int) : Bool :=
  year % 4 == 0 && (year % 100 != 0 || year % 400 == 0)

/-- The number of days of a month, none for a month that does not exist. -/
def daysInMonth (year : Int) (month : Nat) : Nat :=
  match month with
  | 1 | 3 | 5 | 7 | 8 | 10 | 12 => 31
  | 4 | 6 | 9 | 11 => 30
  | 2 => if isLeapYear year then 29 else 28
  | _ => 0

/-- The earliest year that an instant may lie in. -/
def firstYear : Int := -262143

/-- The latest year that an instant may lie in. -/
def lastYear : Int := 262142

/-- Whether the numbers name a day of the calendar and a time of that day. -/
def isCivil (year : Int) (month day hour minute second nano : Nat) : Bool :=
  decide (firstYear ≤ year) && decide (year ≤ lastYear) &&
    decide (1 ≤ day) && decide (day ≤ daysInMonth year month) &&
    decide (hour < 24) && decide (minute < 60) && decide (second ≤ 60) &&
    decide (nano < 1000000000)

/-- A point in time, as the date and time of day of universal time. -/
structure Instant where
  /-- The year; year zero is the one before year one. -/
  year : Int
  /-- The month, counted from one. -/
  month : Nat
  /-- The day of the month, counted from one. -/
  day : Nat
  /-- The hour of the day. -/
  hour : Nat
  /-- The minute of the hour. -/
  minute : Nat
  /-- The second of the minute; sixty is a leap second. -/
  second : Nat
  /-- The nanosecond of the second. -/
  nano : Nat
  /-- The numbers name a possible date and time. -/
  civil : isCivil year month day hour minute second nano = true
  deriving DecidableEq

namespace Instant

/-- The instant with these numbers, if they name a possible date and time. -/
def of? (year : Int) (month day hour minute second nano : Nat) : Option Instant :=
  if h : isCivil year month day hour minute second nano = true then
    some ⟨year, month, day, hour, minute, second, nano, h⟩
  else none

/-- Reading the numbers of an instant gives that instant. -/
@[simp]
theorem of?_fields (t : Instant) :
    of? t.year t.month t.day t.hour t.minute t.second t.nano = some t := by
  simp [of?, t.civil]

/-- The day after a day. -/
def dayAfter (year : Int) (month day : Nat) : Int × Nat × Nat :=
  if day < daysInMonth year month then (year, month, day + 1)
  else if month < 12 then (year, month + 1, 1)
  else (year + 1, 1, 1)

/-- The day before a day. -/
def dayBefore (year : Int) (month day : Nat) : Int × Nat × Nat :=
  if 1 < day then (year, month, day - 1)
  else if 1 < month then (year, month - 1, daysInMonth year (month - 1))
  else (year - 1, 12, 31)

/-- The instant at which a clock that is `offset` minutes ahead of universal time shows `t`.  An
offset is less than a day, so only the neighbouring days come into question. -/
def ofLocal? (t : Instant) (offset : Int) : Option Instant :=
  if offset = 0 then some t
  else
    let minutes : Int := t.hour * 60 + t.minute - offset
    let (year, month, day) :=
      if minutes < 0 then dayBefore t.year t.month t.day
      else if minutes ≥ 1440 then dayAfter t.year t.month t.day
      else (t.year, t.month, t.day)
    let ofDay := (minutes % 1440).toNat
    of? year month day (ofDay / 60) (ofDay % 60) t.second t.nano

/-- The day that lies `n` days after the first of January 1970.  Years are counted from March, so
that the leap day ends a year, and in eras of four hundred years, which all have as many days. -/
def dayOfNumber (n : Int) : Int × Nat × Nat :=
  let z := n + 719468
  let era := z / 146097
  let dayOfEra := (z % 146097).toNat
  let yearOfEra := (dayOfEra - dayOfEra / 1460 + dayOfEra / 36524 - dayOfEra / 146096) / 365
  let dayOfYear := dayOfEra - (365 * yearOfEra + yearOfEra / 4 - yearOfEra / 100)
  let shifted := (5 * dayOfYear + 2) / 153
  let day := dayOfYear - (153 * shifted + 2) / 5 + 1
  let month := if shifted < 10 then shifted + 3 else shifted - 9
  let year := (yearOfEra : Int) + era * 400
  (if month ≤ 2 then year + 1 else year, month, day)

/-- The instant that lies `seconds` and `nano` nanoseconds after the start of 1970, as a system
clock counts. -/
def ofEpoch? (seconds : Int) (nano : Nat) : Option Instant :=
  let (year, month, day) := dayOfNumber (seconds / 86400)
  let ofDay := (seconds % 86400).toNat
  of? year month day (ofDay / 3600) (ofDay / 60 % 60) (ofDay % 60) nano

end Instant

end Workflow
