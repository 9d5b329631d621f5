import Timetable.Expression
import Timetable.Expression.Layout
import Timetable.Span.Words

/-!
# Descriptors

A descriptor names a common schedule.  Those for years, months, weeks, days and
hours are patterns that begin at the lowest number of each smaller unit; the
last one gives an interval in words.
-/

namespace Timetable
namespace Expression

/-- Midnight of the first day of the year, whatever day of the week it is. -/
def yearly (l : Location) : Pattern where
  second := Mask.single 0
  minute := Mask.single 0
  hour := Mask.single 0
  dayOfMonth := Mask.single 1
  month := Mask.single 1
  dayOfWeek := Field.unrestricted Bounds.daysOfWeek
  location := l

/-- Midnight of the first day of every month. -/
def monthly (l : Location) : Pattern :=
  { yearly l with month := Field.unrestricted Bounds.months }

/-- Midnight of every day. -/
def daily (l : Location) : Pattern :=
  { monthly l with dayOfMonth := Field.unrestricted Bounds.daysOfMonth }

/-- Midnight of every Sunday. -/
def weekly (l : Location) : Pattern :=
  { daily l with dayOfWeek := Mask.single 0 }

/-- The beginning of every hour. -/
def hourly (l : Location) : Pattern :=
  { daily l with hour := Field.unrestricted Bounds.hours }

/-- The patterns that have names. -/
def namedPattern? (l : Location) (name : String) : Option Pattern :=
  if name = "@yearly" ∨ name = "@annually" then some (yearly l)
  else if name = "@monthly" then some (monthly l)
  else if name = "@weekly" then some (weekly l)
  else if name = "@daily" ∨ name = "@midnight" then some (daily l)
  else if name = "@hourly" then some (hourly l)
  else none

/-- How the descriptor of an interval begins. -/
def everyLead : List Char :=
  "@every ".toList

/-- Read the descriptor of an interval. -/
def readEvery (text : List Char) : Except Refusal Expression :=
  if everyLead.isPrefixOf text then
    match Span.ofWords (Text.trim (text.drop everyLead.length)) with
    | .error .secondsExhausted => .error (.crash .arithmetic)
    | .error why => .error (.fault (.invalidDuration (String.ofList text) why))
    | .ok span =>
        match Cadence.ofSpan? span with
        | .error f => .error (.fault f)
        | .ok c => .ok (.every c)
  else .error (.fault (.unrecognizedDescriptor (String.ofList text)))

/-- Read a descriptor. -/
def readDescriptor (l : Location) (text : List Char) : Except Refusal Expression :=
  match namedPattern? l (String.ofList text) with
  | some p => .ok (.pattern p)
  | none => readEvery text

end Expression
end Timetable
