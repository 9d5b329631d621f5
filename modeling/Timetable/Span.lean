import Timetable.Powers

/-!
# Lengths of time

A span is a whole number of nanoseconds whose seconds fit into an unsigned
word of 64 bits.

Main result: a span is its seconds and the nanoseconds left over
(seconds_subNanos).
-/

namespace Timetable

/-- Nanoseconds in a second. -/
def nanosPerSecond : Nat := 1000000000

/-- Nanoseconds in a millisecond. -/
def nanosPerMilli : Nat := 1000000

/-- A length of time. -/
structure Span where
  nanos : Nat
  inRange : nanos < wordLimit * nanosPerSecond
  deriving DecidableEq, Repr

namespace Span

/-- The empty span. -/
def zero : Span :=
  ⟨0, by decide⟩

instance : Inhabited Span :=
  ⟨zero⟩

instance : LE Span :=
  ⟨fun a b => a.nanos ≤ b.nanos⟩

instance : LT Span :=
  ⟨fun a b => a.nanos < b.nanos⟩

instance (a b : Span) : Decidable (a ≤ b) :=
  inferInstanceAs (Decidable (a.nanos ≤ b.nanos))

instance (a b : Span) : Decidable (a < b) :=
  inferInstanceAs (Decidable (a.nanos < b.nanos))

theorem le_iff {a b : Span} : a ≤ b ↔ a.nanos ≤ b.nanos :=
  Iff.rfl

/-- The span of so many nanoseconds, if it is in range. -/
def ofNanos? (n : Nat) : Option Span :=
  if h : n < wordLimit * nanosPerSecond then some ⟨n, h⟩ else none

/-- The span of so many seconds and nanoseconds, if it is in range. -/
def ofParts? (seconds nanos : Nat) : Option Span :=
  ofNanos? (seconds * nanosPerSecond + nanos)

/-- The span of so many milliseconds, if it is in range. -/
def ofMillis? (n : Nat) : Option Span :=
  ofNanos? (n * nanosPerMilli)

/-- One second. -/
def second : Span :=
  ⟨nanosPerSecond, by decide⟩

/-- Whole seconds of the span. -/
def seconds (s : Span) : Nat :=
  s.nanos / nanosPerSecond

/-- Nanoseconds beyond the whole seconds. -/
def subNanos (s : Span) : Nat :=
  s.nanos % nanosPerSecond

/-- A span is its seconds and the nanoseconds left over. -/
theorem seconds_subNanos (s : Span) :
    s.seconds * nanosPerSecond + s.subNanos = s.nanos :=
  Nat.div_add_mod' s.nanos nanosPerSecond

theorem seconds_lt (s : Span) : s.seconds < wordLimit := by
  have h := s.inRange
  unfold seconds
  rw [Nat.div_lt_iff_lt_mul (by decide)]
  exact h

theorem subNanos_lt (s : Span) : s.subNanos < nanosPerSecond :=
  Nat.mod_lt _ (by decide)

end Span
end Timetable
