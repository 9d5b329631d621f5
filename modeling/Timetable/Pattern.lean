import Timetable.Location
import Timetable.Mask

/-!
# Patterns

A pattern says which readings of a clock are accepted: it has a mask for each
part of a date and a time of day.  The two day masks are joined by the rule of
unix: if either carries the star, the day has to be in both; otherwise one of
them is enough.
-/

namespace Timetable

/-- Which readings of a clock are accepted. -/
structure Pattern where
  second : Mask
  minute : Mask
  hour : Mask
  dayOfMonth : Mask
  month : Mask
  dayOfWeek : Mask
  location : Location
  deriving DecidableEq, Repr

namespace Pattern

/-- The day rule, for a day of the month and a day of the week. -/
def dayRule (p : Pattern) (dayOfMonth dayOfWeek : Nat) : Bool :=
  if p.dayOfMonth.hasStar || p.dayOfWeek.hasStar then
    p.dayOfMonth.has dayOfMonth && p.dayOfWeek.has dayOfWeek
  else
    p.dayOfMonth.has dayOfMonth || p.dayOfWeek.has dayOfWeek

/-- The pattern accepts the date of a day. -/
def acceptsDay (p : Pattern) (day : Int) : Bool :=
  let date := Calendar.dateOf day
  p.month.has date.month && p.dayRule date.day (Calendar.weekday day)

/-- The pattern accepts a time of day, given in seconds. -/
def acceptsTime (p : Pattern) (time : Nat) : Bool :=
  p.hour.has (time / 3600) && p.minute.has (time / 60 % 60) && p.second.has (time % 60)

/-- The pattern accepts a second of the clock. -/
def accepts (p : Pattern) (second : Int) : Bool :=
  p.acceptsDay (Calendar.dayOfSecond second) && p.acceptsTime (Calendar.timeOfSecond second)

end Pattern
end Timetable
