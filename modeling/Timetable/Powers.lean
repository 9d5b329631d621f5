/-!
# Powers

The powers of two and of ten among the natural numbers, and the limit of a word.
-/

namespace Timetable

/-- Two to a power. -/
def twoTo (n : Nat) : Nat :=
  Nat.pow 2 n

/-- Ten to a power. -/
def tenTo (n : Nat) : Nat :=
  Nat.pow 10 n

/-- The numbers of an unsigned word of 64 bits lie below this limit. -/
def wordLimit : Nat := 18446744073709551616

theorem twoTo_pos (n : Nat) : 0 < twoTo n :=
  Nat.pow_pos (by decide)

theorem tenTo_pos (n : Nat) : 0 < tenTo n :=
  Nat.pow_pos (by decide)

end Timetable
