import Timetable.Cadence
import Timetable.Pattern.Search

/-!
# Expressions

An expression is a pattern of readings or a cadence.  It answers two questions:
which activation comes after an instant, and which is the first at or after one.
A pattern answers the second by looking after the nanosecond before; a cadence
begins wherever it is anchored.
-/

namespace Timetable

/-- When activations happen. -/
inductive Expression where
  | pattern (p : Pattern)
  | every (c : Cadence)
  deriving DecidableEq, Repr

namespace Expression

/-- The activation after an instant. -/
def next : Expression → Instant → Except Crash (Option Instant)
  | pattern p, after => p.next after
  | every c, after => .ok (c.next after)

/-- The first activation at or after an instant. -/
def first : Expression → Instant → Except Crash (Option Instant)
  | pattern p, anchor =>
      match anchor.before? with
      | none => .error .calendar
      | some before => p.next before
  | every _, anchor => .ok (some anchor)

end Expression
end Timetable
