import Timetable.Instant

/-!
# Time zones

A zone is an offset from a clock without offset, together with the instants at
which that offset changes.  Nothing is assumed of the changes but their order:
clocks may be turned forwards or backwards by any amount, any number of times.

A reading is shown once in each period whose offset leads to an instant of that
period, so it may be shown never, once or several times.
-/

namespace Timetable

/-- From a second on, an offset in seconds. -/
structure OffsetChange where
  second : Int
  offset : Int
  deriving DecidableEq, Repr

/-- A named history of offsets. -/
structure Zone where
  name : String
  initial : Int
  changes : List OffsetChange
  deriving DecidableEq, Repr

namespace Zone

/-- The changes stand in the order of time. -/
def Ordered (z : Zone) : Prop :=
  z.changes.Pairwise fun a b => a.second < b.second

/-- Each change comes before its neighbour. -/
def ascends : List OffsetChange → Bool
  | [] => true
  | [_] => true
  | a :: b :: rest => decide (a.second < b.second) && ascends (b :: rest)

/-- The offset at a second, after an offset that held before the given changes. -/
def offsetAfter (offset second : Int) : List OffsetChange → Int
  | [] => offset
  | c :: cs => if second < c.second then offset else offsetAfter c.offset second cs

/-- The offset at an instant. -/
def offsetAt (z : Zone) (i : Instant) : Int :=
  offsetAfter z.initial i.second z.changes

/-- The offsets under which a clock shows a second, in the order of time: the
current period began at a second, or always held, and the changes follow. -/
def offsetsShowing (reading : Int) (start : Option Int) (offset : Int) :
    List OffsetChange → List Int
  | [] =>
      if start.all (· ≤ reading - offset) then [offset] else []
  | c :: cs =>
      (if start.all (· ≤ reading - offset) && reading - offset < c.second then [offset] else []) ++
        offsetsShowing reading (some c.second) c.offset cs

/-- The instants at which a clock of the zone shows a reading, earlier ones first. -/
def instantsShowing (z : Zone) (r : Reading) : List Instant :=
  (offsetsShowing r.second none z.initial z.changes).filterMap fun offset =>
    r.face.shift? (-(offset * nanosPerSecond))

/-- What a clock of the zone shows at an instant, if the calendar has it. -/
def reading? (z : Zone) (i : Instant) : Option Reading :=
  (i.shift? (z.offsetAt i * nanosPerSecond)).map Reading.mk

/-- The earliest instant after a given one at which a clock of the zone shows a reading. -/
def resolveAfter (z : Zone) (r : Reading) (after : Instant) : Option Instant :=
  (z.instantsShowing r).find? fun i => after < i

/-- Changes of which each comes before its neighbour stand in the order of time. -/
theorem pairwise_of_ascends {cs : List OffsetChange} (h : ascends cs = true) :
    cs.Pairwise fun a b => a.second < b.second := by
  induction cs with
  | nil => exact List.Pairwise.nil
  | cons a rest ih =>
      cases rest with
      | nil => simp
      | cons b rest =>
          simp only [ascends, Bool.and_eq_true, decide_eq_true_eq] at h
          have tail := ih h.2
          refine List.Pairwise.cons ?_ tail
          intro c hc
          rcases List.mem_cons.1 hc with rfl | hc
          · exact h.1
          · exact Int.lt_trans h.1 ((List.pairwise_cons.1 tail).1 c hc)

/-- An instant that resolves a reading comes after the given one. -/
theorem lt_of_resolveAfter {z : Zone} {r : Reading} {after i : Instant}
    (h : z.resolveAfter r after = some i) : after < i := by
  have := List.find?_some h
  simpa using this

end Zone
end Timetable
