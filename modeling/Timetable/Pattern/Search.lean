import Timetable.Pattern

/-!
# The next reading and the next activation

The least accepted reading from a given one on is found in two steps: on the day
of the given reading, if it is accepted, by looking for an accepted time of day
from the given one on; otherwise on the first accepted day after it, at the first
accepted time of day.  A time of day is searched through nested units, hours,
minutes and seconds, in the same manner.

An activation is an instant at which the clock shows an accepted reading.
Readings that the clock skips are passed over.  When the clock is turned back
between the start and the activation found, the repeated readings are searched
once more from the start, read with the offset that holds at the activation.

Main results:

* a reading that is found is not before the start (le_of_nextReading?);
* an activation that is found comes after the start (lt_of_firstResolved).
-/

namespace Timetable
namespace Pattern

/-- Years after which a search gives up. -/
def yearLimit : Int := 5

/-- The first number from a given one on in a larger unit that splits into smaller
ones: the larger unit has a mask and a limit, and the smaller ones a search of
their own. -/
def nested (outer : Mask) (limit unit : Nat) (inner : Nat → Option Nat) (start : Nat) :
    Option Nat :=
  let here := start / unit
  let rest := if outer.has here then (inner (start % unit)).map (here * unit + ·) else none
  match rest with
  | some n => some n
  | none =>
      match outer.leastFrom (here + 1) limit, inner 0 with
      | some next, some n => some (next * unit + n)
      | _, _ => none

/-- The first accepted second of a minute from a given one on. -/
def secondFrom (p : Pattern) (start : Nat) : Option Nat :=
  p.second.leastFrom start 60

/-- The first accepted second of an hour from a given one on. -/
def minuteFrom (p : Pattern) (start : Nat) : Option Nat :=
  nested p.minute 60 60 p.secondFrom start

/-- The first accepted second of a day from a given one on. -/
def timeFrom (p : Pattern) (start : Nat) : Option Nat :=
  nested p.hour 24 3600 p.minuteFrom start

/-- The first accepted day from a given one up to a last one. -/
def dayFrom (p : Pattern) (day last : Int) : Option Int :=
  if last < day then none
  else if p.acceptsDay day then some day
  else dayFrom p (day + 1) last
termination_by (last + 1 - day).toNat
decreasing_by omega

/-- The last day on which a search for readings up to a year may end. -/
def lastSearchDay (year : Int) : Int :=
  min (Calendar.lastDayOfYear year) Calendar.lastDay

/-- The first accepted second on a day from a time of day on. -/
def onDay (p : Pattern) (day : Int) (time : Nat) : Option Int :=
  (p.timeFrom time).map fun (t : Nat) => day * Calendar.secondsPerDay + (t : Int)

/-- The first accepted second on a day after the given one. -/
def afterDay (p : Pattern) (day last : Int) : Option Int :=
  (p.dayFrom (day + 1) last).bind fun next => p.onDay next 0

/-- The least accepted second from a given one on, up to the end of a year. -/
def nextReading? (p : Pattern) (start year : Int) : Option Int :=
  let day := Calendar.dayOfSecond start
  let last := lastSearchDay year
  if last < day then none
  else
    let today := if p.acceptsDay day then p.onDay day (Calendar.timeOfSecond start) else none
    match today with
    | some second => some second
    | none => p.afterDay day last

/-- A search through nested units does not go back, if the inner search does not. -/
theorem le_of_nested {outer : Mask} {limit unit start n : Nat} {inner : Nat → Option Nat}
    (hunit : 0 < unit) (hinner : ∀ {a b}, inner a = some b → a ≤ b)
    (h : nested outer limit unit inner start = some n) : start ≤ n := by
  have hdiv := Nat.div_add_mod start unit
  rw [Nat.mul_comm] at hdiv
  simp only [nested] at h
  split at h
  · rename_i m hm
    cases h
    split at hm
    · simp only [Option.map_eq_some_iff] at hm
      obtain ⟨k, hk, rfl⟩ := hm
      have := hinner hk
      omega
    · simp at hm
  · split at h
    · rename_i next k hnext hk
      cases h
      have hb := (Mask.leastFrom_bounds hnext).1
      have hmod := Nat.mod_lt start hunit
      have hmul : (start / unit + 1) * unit ≤ next * unit := Nat.mul_le_mul_right unit hb
      rw [Nat.add_mul, Nat.one_mul] at hmul
      omega
    · simp at h

/-- A second found in a minute is not before the start and within the minute. -/
theorem secondFrom_bounds {p : Pattern} {start n : Nat}
    (h : p.secondFrom start = some n) : start ≤ n ∧ n < 60 := by
  have hb := Mask.leastFrom_bounds h
  exact ⟨hb.1, hb.2.1⟩

theorem le_of_minuteFrom {p : Pattern} {start n : Nat}
    (h : p.minuteFrom start = some n) : start ≤ n :=
  le_of_nested (by decide) (fun h => (secondFrom_bounds h).1) h

/-- A time of day that is found is not before the start. -/
theorem le_of_timeFrom {p : Pattern} {start n : Nat}
    (h : p.timeFrom start = some n) : start ≤ n :=
  le_of_nested (by decide) le_of_minuteFrom h

/-- A day that is found lies between the start and the last day, and is accepted. -/
theorem dayFrom_bounds {p : Pattern} {day last found : Int}
    (h : p.dayFrom day last = some found) :
    day ≤ found ∧ found ≤ last ∧ p.acceptsDay found = true := by
  fun_induction dayFrom p day last with
  | case1 => simp at h
  | case2 day _ hday =>
      cases h
      exact ⟨Int.le_refl _, by omega, hday⟩
  | case3 day _ _ ih =>
      have := ih h
      exact ⟨by omega, this.2⟩

/-- A reading that is found is not before the start. -/
theorem le_of_nextReading? {p : Pattern} {start year found : Int}
    (h : p.nextReading? start year = some found) : start ≤ found := by
  have hsplit := Calendar.dayOfSecond_timeOfSecond start
  have htime := Calendar.timeOfSecond_lt start
  unfold Calendar.secondsPerDay at hsplit
  simp only [nextReading?] at h
  split at h
  · simp at h
  · split at h
    · rename_i second hsecond
      cases h
      split at hsecond
      · simp only [onDay, Option.map_eq_some_iff] at hsecond
        obtain ⟨t, ht, rfl⟩ := hsecond
        have := le_of_timeFrom ht
        unfold Calendar.secondsPerDay
        omega
      · simp at hsecond
    · simp only [afterDay, Option.bind_eq_some_iff, onDay, Option.map_eq_some_iff] at h
      obtain ⟨next, hnext, t, _, rfl⟩ := h
      have := (dayFrom_bounds hnext).1
      unfold Calendar.secondsPerDay
      omega

/-- The search starts on no day after the last one. -/
theorem dayOfSecond_le_of_nextReading? {p : Pattern} {start year found : Int}
    (h : p.nextReading? start year = some found) :
    Calendar.dayOfSecond start ≤ lastSearchDay year := by
  simp only [nextReading?] at h
  split at h
  · simp at h
  · omega

/-- The first activation after an instant among the readings from a second on. -/
def firstResolved (p : Pattern) (after : Instant) (year start : Int) : Option Instant :=
  match _h : p.nextReading? start year with
  | none => none
  | some second =>
      match (Reading.ofSecond? second).bind (p.location.resolveAfter · after) with
      | some instant => some instant
      | none => firstResolved p after year (second + 1)
termination_by ((lastSearchDay year + 1) * Calendar.secondsPerDay - start).toNat
decreasing_by
  have hle := le_of_nextReading? _h
  have hday := dayOfSecond_le_of_nextReading? _h
  unfold Calendar.dayOfSecond Calendar.secondsPerDay at *
  omega

/-- The search for the first activation never answers with the start or an earlier instant. -/
theorem lt_of_firstResolved {p : Pattern} {after found : Instant} {year start : Int}
    (h : p.firstResolved after year start = some found) : after < found := by
  fun_induction firstResolved p after year start with
  | case1 => simp at h
  | case2 _ _ _ _ hres =>
      cases h
      simp only [Option.bind_eq_some_iff] at hres
      obtain ⟨r, _, hr⟩ := hres
      exact Zone.lt_of_resolveAfter hr
  | case3 _ _ _ _ ih => exact ih h

/-- The activation found among readings that are repeated after the clock was turned
back by then, if there is an earlier one. -/
def earlierRepeat (p : Pattern) (after found : Instant) (year : Int) : Option Instant :=
  let offset := p.location.offsetAt found
  if offset < p.location.offsetAt after then
    (after.shift? (offset * nanosPerSecond)).bind fun rewound =>
      (p.firstResolved after year (rewound.second + 1)).filter fun earlier => earlier < found
  else none

/-- The next activation after an instant whose reading is in the calendar. -/
def nextFrom (p : Pattern) (after : Instant) (reading : Reading) : Option Instant :=
  let year := reading.year + yearLimit
  match p.firstResolved after year (reading.second + 1) with
  | none => none
  | some found => some ((p.earlierRepeat after found year).getD found)

/-- The next activation after an instant.  The instant has to have a reading. -/
def next (p : Pattern) (after : Instant) : Except Crash (Option Instant) :=
  match p.location.reading? after with
  | none => .error .calendar
  | some reading => .ok (p.nextFrom after reading)

end Pattern
end Timetable
