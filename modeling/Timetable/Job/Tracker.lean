import Timetable.Journal

/-!
# Trackers

A tracker counts the runs in progress.  A run that enters is counted until it
leaves; a reported tracker keeps a gauge of its count.
-/

namespace Timetable

/-- A tracker is known by its place in the table. -/
abbrev TrackerId := Nat

/-- The number of runs in progress, and whether it is reported. -/
structure Tracker where
  count : Nat := 0
  reported : Bool := true
  deriving DecidableEq, Repr

namespace Tracker

/-- The tracker with one more run. -/
def enter (t : Tracker) : Tracker :=
  { t with count := t.count + 1 }

/-- The tracker with one run less. -/
def leave (t : Tracker) : Tracker :=
  { t with count := t.count - 1 }

/-- The gauge of a reported tracker. -/
def gauge (t : Tracker) : List Event :=
  if t.reported then [.gauged .inFlightRuns t.count] else []

/-- A run that enters and leaves changes nothing. -/
@[simp] theorem leave_enter (t : Tracker) : t.enter.leave = t := by
  simp [enter, leave]

end Tracker
end Timetable
