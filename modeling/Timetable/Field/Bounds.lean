import Timetable.Text.Caseless

/-!
# Bounds of a field

Each field of an expression has a lowest and a highest number, and some fields
have names for their numbers.
-/

namespace Timetable

/-- The numbers that a field admits, and their names. -/
structure Bounds where
  low : Nat
  high : Nat
  names : List (String × Nat)
  deriving DecidableEq, Repr

namespace Bounds

/-- Seconds of a minute. -/
def seconds : Bounds := ⟨0, 59, []⟩

/-- Minutes of an hour. -/
def minutes : Bounds := ⟨0, 59, []⟩

/-- Hours of a day. -/
def hours : Bounds := ⟨0, 23, []⟩

/-- Days of a month. -/
def daysOfMonth : Bounds := ⟨1, 31, []⟩

/-- Months of a year. -/
def months : Bounds :=
  ⟨1, 12,
    [("jan", 1), ("feb", 2), ("mar", 3), ("apr", 4), ("may", 5), ("jun", 6),
     ("jul", 7), ("aug", 8), ("sep", 9), ("oct", 10), ("nov", 11), ("dec", 12)]⟩

/-- Days of a week, from Sunday. -/
def daysOfWeek : Bounds :=
  ⟨0, 6,
    [("sun", 0), ("mon", 1), ("tue", 2), ("wed", 3), ("thu", 4), ("fri", 5), ("sat", 6)]⟩

/-- The number of a name, in letters of any case. -/
def lookup (b : Bounds) (name : List Char) : Option Nat :=
  (b.names.find? fun entry => Text.sameLetters entry.1.toList name).map Prod.snd

end Bounds
end Timetable
