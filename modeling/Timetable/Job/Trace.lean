import Timetable.Job.Outcome
import Timetable.Journal

/-!
# Spans of runs

A tracer opens a span for a run.  One kind of tracer records its spans in a
table, with all that is done to them, in order; another opens spans of the log;
the last keeps silent.
-/

namespace Timetable

/-- What opens spans. -/
inductive Tracer where
  | recording
  | logging
  | silent
  deriving DecidableEq, Repr

/-- An open span. -/
inductive SpanRef where
  | recorded (n : Nat)
  | logged (n : Nat)
  | silent
  deriving DecidableEq, Repr

/-- What is done to an open span. -/
inductive SpanDeed where
  | tagged (name value : String)
  | noted (fields : List (String × String))
  | finished
  deriving DecidableEq, Repr

/-- A span in the table, with all that has been done to it, in order. -/
structure RecordedSpan where
  name : String
  parent : Option Nat
  /-- The tags with which it was opened. -/
  given : List (String × String)
  deeds : List SpanDeed := []
  deriving DecidableEq, Repr

namespace RecordedSpan

/-- The span with one more thing done to it. -/
def did (s : RecordedSpan) (deed : SpanDeed) : RecordedSpan :=
  { s with deeds := s.deeds ++ [deed] }

/-- The tags of the span. -/
def tags (s : RecordedSpan) : List (String × String) :=
  s.given ++ s.deeds.filterMap fun
    | .tagged name value => some (name, value)
    | _ => none

/-- The fields that were noted on the span. -/
def fields (s : RecordedSpan) : List (String × String) :=
  s.deeds.flatMap fun
    | .noted fields => fields
    | _ => []

/-- How often the span was finished. -/
def finished (s : RecordedSpan) : Nat :=
  s.deeds.count .finished

end RecordedSpan

namespace SpanRef

/-- The place of a recorded span in the table. -/
def recorded? : SpanRef → Option Nat
  | recorded n => some n
  | _ => none

/-- The number of a span of the log. -/
def logged? : SpanRef → Option Nat
  | logged n => some n
  | _ => none

end SpanRef

/-- What a failure attaches to the span of its run. -/
def JobFailure.spanFields (f : JobFailure) : List (String × String) :=
  [("event", "error"), ("error.kind", f.kind.title), ("message", f.message)]

end Timetable
