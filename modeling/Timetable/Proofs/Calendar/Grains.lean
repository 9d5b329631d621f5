import Timetable.Proofs.Calendar.Months

/-!
# Grains of time

A second lies in a month, a day, an hour, a minute and is itself a second.  Each
of these grains has a beginning, from which a leap leads to the beginning of the
next one.  Grains are nested: where a coarse one begins a finer one begins too, so
a leap does not leave a coarser grain unless it ends at the beginning of another.

Main results:

* a second lies between the beginning of its grain and that of the next
  (floor_bounds, lt_leap_floor), and between these the grain stays the same
  (floor_eq_of_between);
* a leap stays in the coarser grain or ends where one begins (floor_leap_of_coarser).
-/

namespace Timetable

/-- A part of a reading. -/
inductive Grain where
  | month
  | day
  | hour
  | minute
  | second
  deriving DecidableEq, Repr

namespace Grain

open Calendar

/-- How many grains are finer. -/
def rank : Grain → Nat
  | month => 4
  | day => 3
  | hour => 2
  | minute => 1
  | second => 0

/-- The next finer grain. -/
def finer? : Grain → Option Grain
  | month => some day
  | day => some hour
  | hour => some minute
  | minute => some second
  | second => none

/-- The beginning of the grain in which a second lies. -/
def floor (g : Grain) (s : Int) : Int :=
  match g with
  | month => firstOfMonth (dayOfSecond s) * secondsPerDay
  | day => dayOfSecond s * secondsPerDay
  | hour => dayOfSecond s * secondsPerDay + (timeOfSecond s / 3600 * 3600 : Nat)
  | minute => dayOfSecond s * secondsPerDay + (timeOfSecond s / 60 * 60 : Nat)
  | second => s

/-- The same point of the next grain; in the next month, the same day or the last one. -/
def leap (g : Grain) (s : Int) : Int :=
  match g with
  | month => dayOf (dateOf (dayOfSecond s)).nextMonth * secondsPerDay + timeOfSecond s
  | day => s + secondsPerDay
  | hour => s + 3600
  | minute => s + 60
  | second => s + 1

/-- The number of the grain in the next coarser one. -/
def number (g : Grain) (s : Int) : Nat :=
  match g with
  | month => (dateOf (dayOfSecond s)).month
  | day => (dateOf (dayOfSecond s)).day
  | hour => timeOfSecond s / 3600
  | minute => timeOfSecond s / 60 % 60
  | second => timeOfSecond s % 60

/-- The grain is the first one in the next coarser grain. -/
def isFirst (g : Grain) (s : Int) : Bool :=
  match g with
  | month => month.number s == 1
  | day => day.number s == 1
  | g => g.number s == 0

/-- The length of a grain; a month has the length of the one in which a second lies. -/
def length (g : Grain) (s : Int) : Int :=
  match g with
  | month => monthLength (dayOfSecond s) * secondsPerDay
  | day => secondsPerDay
  | hour => 3600
  | minute => 60
  | second => 1

theorem rank_injective
    {g h : Grain}
    (heq : g.rank = h.rank) :
    g = h := by
  revert heq
  cases g <;> cases h <;> decide

theorem rank_of_finer?
    {f g : Grain}
    (h : g.finer? = some f) :
    g.rank = f.rank + 1 := by
  cases g <;> cases h <;> rfl

theorem rank_eq_zero
    {g : Grain}
    (h : g.finer? = none) :
    g.rank = 0 := by
  revert h
  cases g <;> decide

/-- Below a coarser grain there is a next coarser one. -/
theorem exists_coarser
    {c g : Grain}
    (hrank : g.rank < c.rank) :
    ∃ next : Grain, next.finer? = some g := by
  cases g with
  | month => cases c <;> simp [rank] at hrank
  | day => exact ⟨month, rfl⟩
  | hour => exact ⟨day, rfl⟩
  | minute => exact ⟨hour, rfl⟩
  | second => exact ⟨minute, rfl⟩

/-- A day begins at its first second. -/
theorem dayOfSecond_midnight (d : Int) :
    dayOfSecond (d * secondsPerDay) = d ∧ timeOfSecond (d * secondsPerDay) = 0 := by
  unfold dayOfSecond timeOfSecond secondsPerDay
  omega

/-- From the beginning of a grain a leap goes on by its length. -/
theorem leap_floor
    (g : Grain)
    (s : Int) :
    g.leap (g.floor s) = g.floor s + g.length s := by
  cases g with
  | month =>
      obtain ⟨hday, htime⟩ := dayOfSecond_midnight (firstOfMonth (dayOfSecond s))
      have hfirst := dateOf_firstOfMonth (dayOfSecond s)
      have hnext := dayOf_nextMonth (valid_dateOf (dayOfSecond s))
      unfold leap floor length
      dsimp only
      rw [hday, htime, hfirst, hnext, Int.add_mul, Int.natCast_zero, Int.add_zero]
      rfl
  | day | hour | minute | second => rfl

theorem leap_floor_month (s : Int) :
    month.leap (month.floor s) =
      (firstOfMonth (dayOfSecond s) + monthLength (dayOfSecond s)) * secondsPerDay := by
  rw [leap_floor, Int.add_mul]
  rfl

/-- A second lies in its grain. -/
theorem floor_bounds
    (g : Grain)
    (s : Int) :
    g.floor s ≤ s ∧ s < g.floor s + g.length s := by
  cases g with
  | month =>
      obtain ⟨-, hfirst, hlast⟩ := firstOfMonth_bounds (dayOfSecond s)
      have htime := timeOfSecond_lt s
      have hsplit := dayOfSecond_timeOfSecond s
      unfold floor length secondsPerDay at *
      dsimp only
      omega
  | day | hour | minute | second =>
      unfold floor length dayOfSecond timeOfSecond secondsPerDay
      dsimp only
      omega

theorem lt_leap_floor
    (g : Grain)
    (s : Int) :
    s < g.leap (g.floor s) := by
  rw [leap_floor]
  exact (g.floor_bounds s).2

/-- Up to the next grain every second lies in the same one. -/
theorem floor_eq_of_between
    {g : Grain}
    {s u : Int}
    (hle : g.floor s ≤ u)
    (hlt : u < g.leap (g.floor s)) :
    g.floor u = g.floor s := by
  rw [leap_floor] at hlt
  cases g with
  | month =>
      have hday : firstOfMonth (dayOfSecond s) ≤ dayOfSecond u ∧
          dayOfSecond u < firstOfMonth (dayOfSecond s) + monthLength (dayOfSecond s) := by
        have htime := timeOfSecond_lt u
        have hsplit := dayOfSecond_timeOfSecond u
        unfold floor length secondsPerDay at *
        dsimp only at *
        omega
      unfold floor
      dsimp only
      rw [firstOfMonth_of_month hday.1 hday.2]
  | day | hour | minute | second =>
      unfold floor length dayOfSecond timeOfSecond secondsPerDay at *
      dsimp only at *
      omega

/-- A leap from the beginning of a grain ends at the beginning of the next one. -/
theorem floor_leap_floor
    (g : Grain)
    (s : Int) :
    g.floor (g.leap (g.floor s)) = g.leap (g.floor s) := by
  cases g with
  | month =>
      rw [leap_floor_month, floor, (dayOfSecond_midnight _).1, firstOfMonth_nextMonth]
  | day | hour | minute =>
      rw [leap_floor]
      unfold floor length dayOfSecond timeOfSecond secondsPerDay
      dsimp only
      omega
  | second => rfl

/-- Where a grain begins the next finer one begins too. -/
theorem floor_of_finer?
    {c g : Grain}
    {s : Int}
    (hfiner : c.finer? = some g)
    (h : c.floor s = s) :
    g.floor s = s := by
  unfold finer? at hfiner
  unfold floor at h ⊢
  cases c with
  | month =>
      cases hfiner
      have htime := timeOfSecond_lt s
      have hsplit := dayOfSecond_timeOfSecond s
      unfold secondsPerDay at *
      dsimp only at *
      omega
  | day | hour =>
      cases hfiner
      unfold dayOfSecond timeOfSecond secondsPerDay at *
      dsimp only at *
      omega
  | minute =>
      cases hfiner
      rfl
  | second => cases hfiner

/-- Where a coarse grain begins all finer ones begin too. -/
theorem floor_of_coarser
    {c g : Grain}
    {s : Int}
    (hrank : g.rank < c.rank)
    (h : c.floor s = s) :
    g.floor s = s := by
  induction hn : c.rank generalizing c with
  | zero => omega
  | succ n ih =>
      cases hfiner : c.finer? with
      | none =>
          have hzero := rank_eq_zero hfiner
          omega
      | some f =>
          have hfloor := floor_of_finer? hfiner h
          have hnext := rank_of_finer? hfiner
          rcases Nat.lt_or_eq_of_le (show g.rank ≤ f.rank by omega) with hlt | heq
          · exact ih hlt hfloor (by omega)
          · rw [rank_injective heq]
            exact hfloor

/-- A leap stays in every coarser grain, or it ends where one of them begins. -/
theorem floor_leap_of_coarser
    {c g : Grain}
    {s : Int}
    (hrank : g.rank < c.rank) :
    c.floor (g.leap (g.floor s)) = c.floor s ∨
      c.floor (g.leap (g.floor s)) = g.leap (g.floor s) := by
  have hlater := g.lt_leap_floor s
  have hcoarse := (c.floor_bounds s).1
  rcases lt_or_ge (g.leap (g.floor s)) (c.leap (c.floor s)) with hlt | hge
  · exact Or.inl (floor_eq_of_between (by omega) hlt)
  · -- The next coarse grain begins where a finer one does, and none begins on the way.
    have hbegin := floor_of_coarser hrank (c.floor_leap_floor s)
    have hnext := c.lt_leap_floor s
    have hfine := (g.floor_bounds s).1
    have heq : c.leap (c.floor s) = g.leap (g.floor s) := by
      by_contra hne
      have hsame : g.floor (c.leap (c.floor s)) = g.floor s :=
        floor_eq_of_between (by omega) (by omega)
      omega
    rw [← heq]
    exact Or.inr (c.floor_leap_floor s)

/-- Where a grain begins, the next finer one is the first one in it. -/
theorem isFirst_of_finer?
    {c g : Grain}
    {s : Int}
    (hfiner : c.finer? = some g)
    (h : c.floor s = s) :
    g.isFirst s = true := by
  unfold finer? at hfiner
  unfold floor at h
  cases c with
  | month =>
      cases hfiner
      have htime := timeOfSecond_lt s
      have hsplit := dayOfSecond_timeOfSecond s
      have hday := (firstOfMonth_bounds (dayOfSecond s)).1
      have hone := (valid_dateOf (dayOfSecond s)).day.1
      unfold isFirst number
      unfold secondsPerDay at *
      dsimp only at *
      rw [beq_iff_eq]
      omega
  | day | hour | minute =>
      cases hfiner
      unfold isFirst number
      unfold dayOfSecond timeOfSecond secondsPerDay at *
      dsimp only at *
      rw [beq_iff_eq]
      omega
  | second => cases hfiner

/-- Where a coarse grain begins, every finer one is the first one in the next coarser grain. -/
theorem isFirst_of_coarser
    {c g : Grain}
    {s : Int}
    (hrank : g.rank < c.rank)
    (h : c.floor s = s) :
    g.isFirst s = true := by
  obtain ⟨next, hnext⟩ := exists_coarser hrank
  have hstep := rank_of_finer? hnext
  rcases Nat.lt_or_eq_of_le (show next.rank ≤ c.rank by omega) with hlt | heq
  · exact isFirst_of_finer? hnext (floor_of_coarser hlt h)
  · rw [rank_injective heq] at hnext
    exact isFirst_of_finer? hnext h

/-- All seconds of a day lie on it. -/
theorem dayOfSecond_of_floor
    {s u : Int}
    (h : day.floor u = day.floor s) :
    dayOfSecond u = dayOfSecond s := by
  unfold floor secondsPerDay at h
  dsimp only at h
  omega

/-- All days of a month have its year and its month. -/
theorem month_of_floor
    {s u : Int}
    (h : month.floor u = month.floor s) :
    yearOfSecond u = yearOfSecond s ∧ month.number u = month.number s := by
  have hfirst : firstOfMonth (dayOfSecond u) = firstOfMonth (dayOfSecond s) := by
    unfold floor secondsPerDay at h
    dsimp only at h
    omega
  have hdates := congrArg dateOf hfirst
  rw [dateOf_firstOfMonth, dateOf_firstOfMonth, Date.withDay, Date.withDay, Date.mk.injEq]
    at hdates
  exact ⟨hdates.1, hdates.2.1⟩

/-- All seconds of a grain have its number. -/
theorem number_of_floor
    {g : Grain}
    {s u : Int}
    (h : g.floor u = g.floor s) :
    g.number u = g.number s := by
  cases g with
  | month => exact (month_of_floor h).2
  | day =>
      unfold number
      rw [dayOfSecond_of_floor h]
  | hour | minute =>
      have hs := timeOfSecond_lt s
      have hu := timeOfSecond_lt u
      unfold floor secondsPerDay at h
      unfold number
      dsimp only at *
      omega
  | second =>
      obtain rfl : u = s := h
      rfl

/-- A leap to a grain that is not the first one stays in every coarser grain. -/
theorem floor_leap_of_not_isFirst
    {c g : Grain}
    {s : Int}
    (hrank : g.rank < c.rank)
    (hlater : g.isFirst (g.leap (g.floor s)) = false) :
    c.floor (g.leap (g.floor s)) = c.floor s := by
  obtain hsame | hbegins := floor_leap_of_coarser (s := s) hrank
  · exact hsame
  · rw [isFirst_of_coarser hrank hbegins] at hlater
    cases hlater

/-- Where a leap ends a grain of its kind begins, and so do the finer ones. -/
theorem floor_leap_of_finer
    {f g : Grain}
    (hrank : f.rank ≤ g.rank)
    (s : Int) :
    f.floor (g.leap (g.floor s)) = g.leap (g.floor s) := by
  rcases Nat.lt_or_eq_of_le hrank with hlt | heq
  · exact floor_of_coarser hlt (g.floor_leap_floor s)
  · rw [rank_injective heq]
    exact g.floor_leap_floor s

/-- A leap to another month than January does not leave the year. -/
theorem yearOfSecond_leap_month
    {s : Int}
    (hlater : month.isFirst (month.leap (month.floor s)) = false) :
    yearOfSecond (month.leap (month.floor s)) = yearOfSecond s := by
  have hdate : dateOf (dayOfSecond (month.leap (month.floor s))) =
      ((dateOf (dayOfSecond s)).withDay 1).nextMonth := by
    rw [leap_floor_month, (dayOfSecond_midnight _).1, dateOf_nextMonth]
  unfold isFirst number at hlater
  unfold yearOfSecond
  dsimp only at hlater
  rw [hdate] at hlater ⊢
  unfold Date.nextMonth Date.withDay at hlater ⊢
  dsimp only at hlater ⊢
  split_ifs at hlater ⊢ with hdecember
  · simp at hlater
  · rfl

/-- A leap to a grain that is not the first one does not leave the year. -/
theorem yearOfSecond_leap
    {g : Grain}
    {s : Int}
    (hlater : g.isFirst (g.leap (g.floor s)) = false) :
    yearOfSecond (g.leap (g.floor s)) = yearOfSecond s := by
  cases g with
  | month => exact yearOfSecond_leap_month hlater
  | day | hour | minute | second =>
      exact (month_of_floor (floor_leap_of_not_isFirst (by decide) hlater)).1

end Grain
end Timetable
