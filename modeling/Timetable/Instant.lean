import Timetable.Calendar
import Timetable.Span

/-!
# Instants and readings

An instant is a number of nanoseconds since the beginning of 1970 that lies in
the calendar.  A reading is what a wall clock shows; it is kept as the instant
at which a clock without offset shows the same.  Arithmetic that leaves the
calendar has no result.
-/

namespace Timetable

/-- The first nanosecond of the calendar. -/
def firstNano : Int := Calendar.firstDay * Calendar.secondsPerDay * nanosPerSecond

/-- The last nanosecond of the calendar. -/
def lastNano : Int := (Calendar.lastDay + 1) * Calendar.secondsPerDay * nanosPerSecond - 1

/-- A point in time. -/
structure Instant where
  nanos : Int
  inCalendar : firstNano ≤ nanos ∧ nanos ≤ lastNano
  deriving DecidableEq, Repr

namespace Instant

instance : LE Instant :=
  ⟨fun a b => a.nanos ≤ b.nanos⟩

instance : LT Instant :=
  ⟨fun a b => a.nanos < b.nanos⟩

instance (a b : Instant) : Decidable (a ≤ b) :=
  inferInstanceAs (Decidable (a.nanos ≤ b.nanos))

instance (a b : Instant) : Decidable (a < b) :=
  inferInstanceAs (Decidable (a.nanos < b.nanos))

theorem le_iff {a b : Instant} : a ≤ b ↔ a.nanos ≤ b.nanos :=
  Iff.rfl

theorem lt_iff {a b : Instant} : a < b ↔ a.nanos < b.nanos :=
  Iff.rfl

/-- The instant so many nanoseconds after the beginning of 1970, if the calendar has it. -/
def ofNanos? (n : Int) : Option Instant :=
  if h : firstNano ≤ n ∧ n ≤ lastNano then some ⟨n, h⟩ else none

/-- The instant so many seconds and nanoseconds after the beginning of 1970, if the
calendar has it. -/
def ofParts? (second : Int) (nanos : Nat) : Option Instant :=
  ofNanos? (second * nanosPerSecond + nanos)

/-- The beginning of 1970. -/
def epoch : Instant :=
  ⟨0, by decide⟩

instance : Inhabited Instant :=
  ⟨epoch⟩

/-- The whole second in which the instant lies. -/
def second (i : Instant) : Int :=
  i.nanos / nanosPerSecond

/-- Nanoseconds since the beginning of the second. -/
def subNanos (i : Instant) : Nat :=
  (i.nanos % nanosPerSecond).toNat

/-- The instant so many nanoseconds later, if the calendar has it. -/
def shift? (i : Instant) (nanos : Int) : Option Instant :=
  ofNanos? (i.nanos + nanos)

/-- The instant a span later, if the calendar has it. -/
def plus? (i : Instant) (s : Span) : Option Instant :=
  i.shift? s.nanos

/-- The nanosecond before, if the calendar has it. -/
def before? (i : Instant) : Option Instant :=
  i.shift? (-1)

/-- The later of two instants. -/
def latest (a b : Instant) : Instant :=
  if a ≤ b then b else a

theorem ofNanos?_eq_some {n : Int} {i : Instant} :
    ofNanos? n = some i ↔ i.nanos = n := by
  unfold ofNanos?
  constructor
  · intro h
    split at h
    · cases h
      rfl
    · simp at h
  · intro h
    subst h
    rw [dif_pos i.inCalendar]

/-- A shift has a result exactly inside the calendar. -/
theorem shift?_eq_some {i j : Instant} {n : Int} :
    i.shift? n = some j ↔ j.nanos = i.nanos + n :=
  ofNanos?_eq_some

end Instant

/-- What a wall clock shows. -/
structure Reading where
  face : Instant
  deriving DecidableEq, Repr

namespace Reading

/-- The whole second that the clock shows, counted as if it had no offset. -/
def second (r : Reading) : Int :=
  r.face.second

/-- The year that the clock shows. -/
def year (r : Reading) : Int :=
  Calendar.yearOfSecond r.second

/-- The reading of a whole second, if the calendar has it. -/
def ofSecond? (second : Int) : Option Reading :=
  (Instant.ofParts? second 0).map Reading.mk

end Reading
end Timetable
