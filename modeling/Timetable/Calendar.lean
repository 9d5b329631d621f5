/-!
# The calendar

Days are numbered from 1970-01-01, in the Gregorian calendar extended to all
years.  A date is computed from the number of its day by counting in eras of
400 years that begin on the first of March.  The calendar has a first and a last
day; nothing outside them has a date that can be named.
-/

namespace Timetable
namespace Calendar

/-- A date of the Gregorian calendar. -/
structure Date where
  year : Int
  month : Nat
  day : Nat
  deriving DecidableEq, Repr

/-- Days in an era of 400 years. -/
def eraDays : Int := 146097

/-- Days from the first of March of the year 0 to 1970-01-01. -/
def epochShift : Int := 719468

/-- The date of a day. -/
def dateOf (day : Int) : Date :=
  let z := day + epochShift
  let era := z / eraDays
  let inEra := (z % eraDays).toNat
  let yearOfEra := (inEra - inEra / 1460 + inEra / 36524 - inEra / 146096) / 365
  let inYear := inEra - (365 * yearOfEra + yearOfEra / 4 - yearOfEra / 100)
  let shifted := (5 * inYear + 2) / 153
  let month := if shifted < 10 then shifted + 3 else shifted - 9
  { year := yearOfEra + era * 400 + (if month ≤ 2 then 1 else 0)
    month := month
    day := inYear - (153 * shifted + 2) / 5 + 1 }

/-- The number of the day with a date. -/
def dayOf (date : Date) : Int :=
  let y := if date.month ≤ 2 then date.year - 1 else date.year
  let era := y / 400
  let yearOfEra := (y % 400).toNat
  let shifted := if 2 < date.month then date.month - 3 else date.month + 9
  let inYear := (153 * shifted + 2) / 5 + (date.day - 1)
  let inEra := yearOfEra * 365 + yearOfEra / 4 - yearOfEra / 100 + inYear
  era * eraDays + inEra - epochShift

/-- The day of the week, Sunday being 0. -/
def weekday (day : Int) : Nat :=
  ((day + 4) % 7).toNat

/-- The last day of a year. -/
def lastDayOfYear (year : Int) : Int :=
  dayOf ⟨year, 12, 31⟩

/-- The first day of the calendar, -262143-01-01. -/
def firstDay : Int := -96465292

/-- The last day of the calendar, +262142-12-31. -/
def lastDay : Int := 95026236

/-- Seconds in a day. -/
def secondsPerDay : Int := 86400

/-- The day of a second counted from the beginning of 1970. -/
def dayOfSecond (second : Int) : Int :=
  second / secondsPerDay

/-- The time of day of a second counted from the beginning of 1970. -/
def timeOfSecond (second : Int) : Nat :=
  (second % secondsPerDay).toNat

/-- The year of a second counted from the beginning of 1970. -/
def yearOfSecond (second : Int) : Int :=
  (dateOf (dayOfSecond second)).year

theorem timeOfSecond_lt (second : Int) :
    timeOfSecond second < 86400 := by
  unfold timeOfSecond secondsPerDay
  omega

/-- A second is its day and its time of day. -/
theorem dayOfSecond_timeOfSecond (second : Int) :
    dayOfSecond second * secondsPerDay + timeOfSecond second = second := by
  unfold dayOfSecond timeOfSecond secondsPerDay
  omega

theorem weekday_lt (day : Int) : weekday day < 7 := by
  unfold weekday
  omega

/-- A date has one of the days that a month may have. -/
theorem day_dateOf (day : Int) : 1 ≤ (dateOf day).day ∧ (dateOf day).day ≤ 31 := by
  simp only [dateOf]
  omega

end Calendar
end Timetable
