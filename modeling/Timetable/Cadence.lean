import Timetable.Fault
import Timetable.Instant

/-!
# Cadences

A cadence is a fixed interval between activations.  It is at least a second and
at most as long as a signed number of milliseconds can say.
-/

namespace Timetable

/-- The longest interval of a cadence. -/
def longestCadence : Nat := 9223372036854775807 * nanosPerMilli

/-- A fixed interval between activations. -/
structure Cadence where
  interval : Span
  atLeast : Span.second ≤ interval
  atMost : interval.nanos ≤ longestCadence
  deriving DecidableEq, Repr

namespace Cadence

/-- The cadence of an interval. -/
def ofSpan? (s : Span) : Except Fault Cadence :=
  if hlow : Span.second ≤ s then
    if hhigh : s.nanos ≤ longestCadence then .ok ⟨s, hlow, hhigh⟩
    else .error (.intervalTooLong s)
  else .error (.intervalTooShort s)

/-- The activation after an instant, if the calendar has it. -/
def next (c : Cadence) (after : Instant) : Option Instant :=
  after.plus? c.interval

/-- An accepted interval is kept to the nanosecond. -/
theorem interval_of_ofSpan? {s : Span} {c : Cadence} (h : ofSpan? s = .ok c) :
    c.interval = s := by
  unfold ofSpan? at h
  split at h
  · split at h
    · cases h
      rfl
    · simp at h
  · simp at h

end Cadence
end Timetable
