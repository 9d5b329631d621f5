import Timetable.Span.Decimal

/-!
# Crashes

Some uses are refused by ending the computation rather than by a fault that the
caller can answer: leaving the calendar or a machine word in arithmetic that has
no other result, cutting a text inside a character, and two demands on the caller.
-/

namespace Timetable

/-- Why a computation ended without a result. -/
inductive Crash where
  | calendar
  | arithmetic
  | slicing
  | emptyKey
  | shortRetry (interval : Span)
  deriving DecidableEq, Repr

/-- The demand on the caller that was not met. -/
def Crash.message? : Crash → Option String
  | .calendar => none
  | .arithmetic => none
  | .slicing => none
  | .emptyKey => some "cannot register a job with an empty key"
  | .shortRetry interval =>
      some ("retry interval must be at least 100ms, got " ++ interval.toDecimal)

/-- What comes out of two steps comes out of the second one, from what comes out of the first. -/
theorem ok_of_bind
    {ε α β : Type}
    {first : Except ε α}
    {second : α → Except ε β}
    {r : β}
    (h : (first >>= second) = .ok r) :
    ∃ a, first = .ok a ∧ second a = .ok r := by
  cases first with
  | error e => simp [Bind.bind, Except.bind] at h
  | ok a => exact ⟨a, rfl, h⟩

end Timetable
