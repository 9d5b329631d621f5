import Timetable.Instant

/-!
# Windows

A window restricts a schedule to the instants from its begin to its end, both
included; either may be missing.  Before the begin the schedule is asked for its
first activation from the begin on, and after the end it is not asked at all.
-/

namespace Timetable

/-- What a schedule is asked for: an activation after an instant, or the first at or
after it. -/
inductive Question where
  | next
  | first
  deriving DecidableEq, Repr

/-- The instants to which a schedule is restricted. -/
structure Window where
  opens : Option Instant := none
  closes : Option Instant := none
  deriving DecidableEq, Repr

namespace Window

/-- The window without begin and end. -/
def unbounded : Window :=
  {}

/-- The window has neither begin nor end. -/
def isUnbounded (w : Window) : Bool :=
  w.opens.isNone && w.closes.isNone

/-- An instant lies in the window. -/
def contains (w : Window) (i : Instant) : Bool :=
  w.opens.all (· ≤ i) && w.closes.all (i ≤ ·)

/-- An instant lies behind the end of the window. -/
def isOver (w : Window) (i : Instant) : Bool :=
  w.closes.any (· < i)

/-- What the restricted schedule is asked when the window is asked for the activation
after an instant; nothing when the window is over. -/
def route (w : Window) (after : Instant) : Option (Question × Instant) :=
  if w.isOver after then none
  else
    match w.opens with
    | some b => if after < b then some (.first, b) else some (.next, after)
    | none => some (.next, after)

/-- An answer of the restricted schedule, if it lies in the window. -/
def keep (w : Window) (answer : Option Instant) : Option Instant :=
  answer.filter w.contains

@[simp] theorem contains_unbounded (i : Instant) : unbounded.contains i = true := by
  rfl

/-- Only what lies in the window is kept. -/
theorem contains_of_keep {w : Window} {answer : Option Instant} {i : Instant}
    (h : w.keep answer = some i) : w.contains i = true := by
  simp only [keep, Option.filter_eq_some_iff] at h
  exact h.2

end Window
end Timetable
