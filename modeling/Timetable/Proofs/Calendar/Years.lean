import Mathlib.Tactic
import Timetable.Calendar

/-!
# The order of years

The year of a date is computed by shortening the number of a day in its era by
the leap days before it, so that every year has 365 days.  The shortened number
does not go back from one day to the next, so it is enough to look at the ends
of the 400 years of an era.

Main result: a day belongs to a year or to an earlier one exactly up to the last
day of the year (year_dateOf_le_iff).
-/

namespace Timetable
namespace Calendar

/-- The number of a day in its era without the leap days before it. -/
def shortened (inEra : Nat) : Nat :=
  inEra - inEra / 1460 + inEra / 36524 - inEra / 146096

/-- The days of an era before one of its years. -/
def daysBefore (yearOfEra : Nat) : Nat :=
  365 * yearOfEra + yearOfEra / 4 - yearOfEra / 100

/-- The year of the era to which a day of the era belongs. -/
def yearInEra (inEra : Nat) : Nat :=
  shortened inEra / 365

theorem shortened_le_succ
    {n : Nat}
    (h : n < 146097) :
    shortened n ≤ shortened (n + 1) := by
  unfold shortened
  omega

theorem shortened_mono
    {m n : Nat}
    (hmn : m ≤ n)
    (hn : n < 146097) :
    shortened m ≤ shortened n := by
  induction n, hmn using Nat.le_induction with
  | base => exact Nat.le_refl _
  | succ n _ ih =>
      have hstep : shortened n ≤ shortened (n + 1) :=
        shortened_le_succ (by omega)
      exact Nat.le_trans (ih (by omega)) hstep

/-- The first and the last day of each year of an era fall into the right multiple of 365. -/
theorem shortened_ends :
    ∀ k < 400,
      365 * k ≤ shortened (daysBefore k) ∧
      shortened (daysBefore (k + 1) - 1) < 365 * (k + 1) := by
  decide +kernel

theorem daysBefore_succ (k : Nat) :
    daysBefore k + 365 ≤ daysBefore (k + 1) ∧
      daysBefore (k + 1) ≤ daysBefore k + 366 := by
  unfold daysBefore
  omega

theorem daysBefore_mono
    {j k : Nat}
    (h : j ≤ k) :
    daysBefore j ≤ daysBefore k := by
  induction k, h using Nat.le_induction with
  | base => exact Nat.le_refl _
  | succ k _ ih =>
      have := (daysBefore_succ k).1
      omega

/-- A day of an era comes in a later year exactly if it is not before that year. -/
theorem le_yearInEra_iff
    {k n : Nat}
    (hk : k < 400)
    (hn : n < 146097) :
    k ≤ yearInEra n ↔ daysBefore k ≤ n := by
  unfold yearInEra
  rw [Nat.le_div_iff_mul_le (by decide), Nat.mul_comm]
  constructor
  · intro h
    by_contra hlt
    cases k with
    | zero =>
        exact hlt (Nat.zero_le n)
    | succ k =>
        -- A day before the year is not after the last day of the year before it.
        have hlast := (shortened_ends k (by omega)).2
        have hle : shortened n ≤ shortened (daysBefore (k + 1) - 1) := by
          apply shortened_mono (by omega)
          have := daysBefore_mono (show k + 1 ≤ 399 by omega)
          have h399 : daysBefore 399 = 145731 := by decide
          omega
        omega
  · intro h
    have hfirst := (shortened_ends k hk).1
    have hle := shortened_mono h hn
    omega

theorem yearInEra_lt
    {n : Nat}
    (hn : n < 146097) :
    yearInEra n < 400 := by
  have h : shortened 146096 = 145999 := by decide
  have hle := shortened_mono (show n ≤ 146096 by omega) (by decide)
  unfold yearInEra
  omega

/-- A day of an era lies in its year, at most 365 days after the year began. -/
theorem daysBefore_yearInEra
    {n : Nat}
    (hn : n < 146097) :
    daysBefore (yearInEra n) ≤ n ∧
      n < daysBefore (yearInEra n) + 366 ∧
      ∀ k, yearInEra n < k → k < 400 → n < daysBefore k := by
  have hlt := yearInEra_lt hn
  have hle := (le_yearInEra_iff hlt hn).1 (Nat.le_refl _)
  have hnext : ∀ k, yearInEra n < k → k < 400 → n < daysBefore k := by
    intro k hk hk400
    have := (le_yearInEra_iff hk400 hn).not.1 (by omega)
    omega
  refine ⟨hle, ?_, hnext⟩
  have hsucc := (daysBefore_succ (yearInEra n)).2
  by_cases hlast : yearInEra n + 1 < 400
  · have := hnext (yearInEra n + 1) (by omega) hlast
    omega
  · have h399 : yearInEra n = 399 := by omega
    have : daysBefore 399 = 145731 := by decide
    rw [h399]
    omega

/-- The month to which a day of an era belongs. -/
def monthInEra (inEra : Nat) : Nat :=
  let shifted := (5 * (inEra - daysBefore (yearInEra inEra)) + 2) / 153
  if shifted < 10 then shifted + 3 else shifted - 9

/-- January begins 306 days after the first of March. -/
theorem monthInEra_le_two_iff
    {n : Nat}
    (hn : n < 146097) :
    monthInEra n ≤ 2 ↔ daysBefore (yearInEra n) + 306 ≤ n := by
  obtain ⟨hle, hlt, -⟩ := daysBefore_yearInEra hn
  unfold monthInEra
  generalize daysBefore (yearInEra n) = start at *
  dsimp only
  split_ifs <;> omega

/-- The number of a day in its era. -/
def dayInEra (day : Int) : Nat :=
  ((day + epochShift) % eraDays).toNat

theorem dayInEra_lt (day : Int) : dayInEra day < 146097 := by
  unfold dayInEra eraDays
  omega

/-- The year of a date, the years of an era beginning in March. -/
theorem year_dateOf (day : Int) :
    (dateOf day).year =
      (yearInEra (dayInEra day) : Int) + (day + epochShift) / eraDays * 400 +
        (if daysBefore (yearInEra (dayInEra day)) + 306 ≤ dayInEra day then 1 else 0) := by
  have hmonth := monthInEra_le_two_iff (dayInEra_lt day)
  have hyear :
      (dateOf day).year =
        (yearInEra (dayInEra day) : Int) + (day + epochShift) / eraDays * 400 +
          (if monthInEra (dayInEra day) ≤ 2 then 1 else 0) := rfl
  rw [hyear]
  simp only [hmonth]

theorem lastDayOfYear_eq (year : Int) :
    lastDayOfYear year + epochShift =
      (year / 400) * eraDays + (daysBefore (year % 400).toNat + 305 : Nat) := by
  simp only [lastDayOfYear, dayOf, daysBefore, show ¬ 12 ≤ 2 by decide, show 2 < 12 by decide,
    if_true, if_false]
  push_cast
  omega

/-- **A day is not after a year exactly if it is not after the last day of the year.** -/
theorem year_dateOf_le_iff (day year : Int) :
    (dateOf day).year ≤ year ↔ day ≤ lastDayOfYear year := by
  have hlast := lastDayOfYear_eq year
  have hyear := year_dateOf day
  have hn := dayInEra_lt day
  have hday :
      day + epochShift = (day + epochShift) / eraDays * eraDays + (dayInEra day : Int) := by
    unfold dayInEra eraDays
    omega
  have hk : (year % 400).toNat < 400 := by omega
  have hsplit : year = 400 * (year / 400) + ((year % 400).toNat : Int) := by omega
  generalize (day + epochShift) / eraDays = era at *
  generalize dayInEra day = n at *
  generalize year / 400 = yearEra at *
  generalize (year % 400).toNat = k at *
  obtain ⟨hle, -, hnext⟩ := daysBefore_yearInEra hn
  have hlt := yearInEra_lt hn
  have hend : daysBefore k + 305 < 146097 := by
    have := daysBefore_mono (show k ≤ 399 by omega)
    have h399 : daysBefore 399 = 145731 := by decide
    omega
  unfold eraDays at hday hlast
  rcases Int.lt_trichotomy era yearEra with hera | hera | hera
  · constructor <;> intro _ <;> split_ifs at hyear <;> omega
  · subst hera
    rcases Nat.lt_trichotomy (yearInEra n) k with hin | hin | hin
    · have := hnext k hin hk
      constructor <;> intro _ <;> split_ifs at hyear <;> omega
    · subst hin
      constructor <;> intro _ <;> split_ifs at hyear <;> omega
    · have hafter : daysBefore k + 365 ≤ daysBefore (yearInEra n) :=
        Nat.le_trans (daysBefore_succ k).1 (daysBefore_mono hin)
      constructor <;> intro _ <;> split_ifs at hyear <;> omega
  · constructor <;> intro _ <;> split_ifs at hyear <;> omega

end Calendar
end Timetable
