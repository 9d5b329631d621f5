import Timetable.Proofs.Calendar.Years

/-!
# Dates and months

The number of a day and its date determine each other, so a date can be changed
and turned back into a day.  Both are compared with a third way to say a day: the
era, the year of the era, the month and the day, all of them counted from March,
so that the leap day is the last day of a year.

Main results:

* a day is the day of its date (dayOf_dateOf), and a date that there is is the
  date of its day (dateOf_dayOf);
* the first of the next month comes as many days after the first of a month as
  the month has days (dayOf_nextMonth).
-/

namespace Timetable
namespace Calendar

/-- A year has a 29 February. -/
def isLeap (year : Int) : Bool :=
  year % 4 == 0 && (year % 100 != 0 || year % 400 == 0)

/-- Days in a month of a year. -/
def daysIn (year : Int) (month : Nat) : Nat :=
  if month = 2 then if isLeap year then 29 else 28
  else if month = 4 ∨ month = 6 ∨ month = 9 ∨ month = 11 then 30
  else 31

namespace Date

/-- There is such a date. -/
structure Valid (date : Date) : Prop where
  month : 1 ≤ date.month ∧ date.month ≤ 12
  day : 1 ≤ date.day ∧ date.day ≤ daysIn date.year date.month

/-- Another day of the month. -/
def withDay (date : Date) (day : Nat) : Date :=
  { date with day := day }

/-- The same day of the next month, or the last one if that month is shorter. -/
def nextMonth (date : Date) : Date :=
  let year := if date.month = 12 then date.year + 1 else date.year
  let month := if date.month = 12 then 1 else date.month + 1
  ⟨year, month, min date.day (daysIn year month)⟩

end Date

theorem isLeap_iff (year : Int) :
    isLeap year = true ↔ year % 4 = 0 ∧ (year % 100 ≠ 0 ∨ year % 400 = 0) := by
  simp [isLeap]

theorem daysIn_bounds (year : Int) (month : Nat) :
    28 ≤ daysIn year month ∧ daysIn year month ≤ 31 := by
  unfold daysIn
  split_ifs <;> omega

/-- Days of a year before one of its months. -/
def daysBeforeMonth (month : Nat) : Nat :=
  (153 * month + 2) / 5

/-- The number of a month in the year that begins in January. -/
def named (month : Nat) : Nat :=
  if month < 10 then month + 3 else month - 9

/-- A month other than February is as long in every year. -/
theorem daysBeforeMonth_succ
    {month : Nat}
    (h : month < 11)
    (year : Int) :
    daysBeforeMonth (month + 1) = daysBeforeMonth month + daysIn year (named month) := by
  interval_cases month <;> rfl

/-- The day of the era with which a year of it ends. -/
def yearEnd (yearOfEra : Nat) : Nat :=
  if yearOfEra = 399 then 146097 else daysBefore (yearOfEra + 1)

/-- A year of an era ends with February, which is as long as in the year that begins in
January. -/
theorem yearEnd_eq
    {year : Nat}
    (h : year < 400)
    (era : Int) :
    yearEnd year = daysBefore year + 337 + daysIn (year + era * 400 + 1) 2 := by
  have hleap := isLeap_iff (year + era * 400 + 1)
  have h399 : daysBefore 399 = 145731 := by decide
  unfold yearEnd daysIn
  rw [if_pos rfl]
  by_cases hlast : year = 399
  · rw [if_pos hlast, if_pos (hleap.2 (by omega)), hlast]
    omega
  · rw [if_neg hlast]
    unfold daysBefore
    split_ifs with hyes
    · have := hleap.1 hyes
      omega
    · have := mt hleap.2 hyes
      omega

theorem dateOf_eq (day : Int) :
    dateOf day =
      let year := yearInEra (dayInEra day)
      let inYear := dayInEra day - daysBefore year
      let month := (5 * inYear + 2) / 153
      ⟨year + (day + epochShift) / eraDays * 400 + (if named month ≤ 2 then 1 else 0),
        named month, inYear - (153 * month + 2) / 5 + 1⟩ := by
  rfl

/-- A day said by its era and by the year, the month and the day in it, the first of them
being 0 and every year beginning in March. -/
structure MarchDate where
  era : Int
  year : Nat
  month : Nat
  day : Nat
  year_lt : year < 400
  inMonth : daysBeforeMonth month + day < daysBeforeMonth (month + 1)
  inYear : daysBefore year + (daysBeforeMonth month + day) < yearEnd year

namespace MarchDate

variable (m : MarchDate)

/-- The day of the era. -/
def inEra : Nat :=
  daysBefore m.year + (daysBeforeMonth m.month + m.day)

/-- The number of the day. -/
def number : Int :=
  m.era * eraDays + m.inEra - epochShift

/-- The date of the day, in years that begin in January. -/
def date : Date where
  year := m.year + m.era * 400 + (if m.month < 10 then 0 else 1)
  month := named m.month
  day := m.day + 1

theorem month_lt : m.month < 12 := by
  have hyear := m.inYear
  have hlast := (daysBefore_succ m.year).2
  have h399 : daysBefore 399 = 145731 := by decide
  unfold yearEnd at hyear
  unfold daysBeforeMonth at hyear
  split_ifs at hyear with h
  · rw [h] at hyear
    omega
  · omega

theorem inEra_lt : m.inEra < 146097 := by
  have hyear := m.inYear
  have hlt := m.year_lt
  unfold inEra
  unfold yearEnd at hyear
  split_ifs at hyear with h
  · exact hyear
  · have hmono := daysBefore_mono (show m.year + 1 ≤ 399 by omega)
    have h399 : daysBefore 399 = 145731 := by decide
    omega

theorem yearInEra_inEra : yearInEra m.inEra = m.year := by
  have hlt := m.inEra_lt
  have hle : m.year ≤ yearInEra m.inEra :=
    (le_yearInEra_iff m.year_lt hlt).2 (Nat.le_add_right _ _)
  have hyear := yearInEra_lt hlt
  by_contra hne
  have hbefore := (le_yearInEra_iff (show m.year + 1 < 400 by omega) hlt).1 (by omega)
  have hend := m.inYear
  unfold yearEnd at hend
  rw [if_neg (by omega)] at hend
  unfold inEra at hbefore
  omega

/-- The date of a day is that of its month and its day counted from March. -/
theorem dateOf_number : dateOf m.number = m.date := by
  have hera : (m.number + epochShift) / eraDays = m.era ∧ dayInEra m.number = m.inEra := by
    have hlt := m.inEra_lt
    unfold dayInEra number epochShift eraDays
    omega
  have hinYear : m.inEra - daysBefore m.year = daysBeforeMonth m.month + m.day := by
    unfold inEra
    omega
  have hmonth : (5 * (daysBeforeMonth m.month + m.day) + 2) / 153 = m.month := by
    have := m.inMonth
    unfold daysBeforeMonth at *
    omega
  have hday : daysBeforeMonth m.month + m.day - (153 * m.month + 2) / 5 = m.day := by
    unfold daysBeforeMonth
    omega
  have hlt := m.month_lt
  rw [dateOf_eq, hera.1, hera.2, m.yearInEra_inEra]
  dsimp only
  rw [hinYear, hmonth, hday, date, Date.mk.injEq]
  refine ⟨?_, rfl, rfl⟩
  unfold named
  split_ifs <;> omega

/-- The day of a date counted from March, in years that begin in January. -/
theorem dayOf_date : dayOf m.date = m.number := by
  have hyear := m.year_lt
  have hmonth := m.month_lt
  unfold dayOf date number named inEra daysBefore daysBeforeMonth
  dsimp only
  by_cases h : m.month < 10
  · simp only [if_pos h, show ¬ m.month + 3 ≤ 2 by omega, show 2 < m.month + 3 by omega, if_true,
      if_false]
    push_cast
    unfold eraDays epochShift
    omega
  · simp only [if_neg h, show m.month - 9 ≤ 2 by omega, show ¬ 2 < m.month - 9 by omega, if_true,
      if_false]
    push_cast
    unfold eraDays epochShift
    omega

/-- Every date counted from March is one that there is. -/
theorem valid_date : m.date.Valid := by
  have hmonth := m.month_lt
  have hlength := m.inMonth
  have hend := m.inYear
  constructor
  · unfold date named
    dsimp only
    split_ifs <;> omega
  · refine ⟨Nat.le_add_left _ _, ?_⟩
    by_cases hfebruary : m.month = 11
    · rw [yearEnd_eq m.year_lt m.era, hfebruary, show daysBeforeMonth 11 = 337 by rfl] at hend
      simp only [date, hfebruary, show named 11 = 2 by rfl, show ¬ 11 < 10 by decide, if_false]
      omega
    · rw [daysBeforeMonth_succ (by omega) m.date.year] at hlength
      simp only [date] at *
      omega

/-- Every date that there is can be counted from March. -/
theorem exists_date_eq
    {date : Date}
    (h : date.Valid) :
    ∃ m : MarchDate, m.date = date := by
  obtain ⟨year, month, day⟩ := date
  obtain ⟨⟨hone, htwelve⟩, hfirst, hlast⟩ := h
  dsimp only at *
  obtain ⟨k, y, hk, rfl, rfl⟩ :
      ∃ (k : Nat) (y : Int), k < 12 ∧ named k = month ∧ y + (if k < 10 then 0 else 1) = year := by
    unfold named
    by_cases hshort : month ≤ 2
    · exact ⟨month + 9, year - 1, by omega, by split_ifs <;> omega, by split_ifs <;> omega⟩
    · exact ⟨month - 3, year, by omega, by split_ifs <;> omega, by split_ifs <;> omega⟩
  have hsplit : ((y % 400).toNat : Int) + y / 400 * 400 = y := by omega
  have hinMonth : daysBeforeMonth k + (day - 1) < daysBeforeMonth (k + 1) := by
    by_cases hfebruary : k = 11
    · subst hfebruary
      unfold daysIn at hlast
      rw [show named 11 = 2 by rfl, if_pos rfl] at hlast
      rw [show daysBeforeMonth 11 = 337 by rfl, show daysBeforeMonth (11 + 1) = 367 by rfl]
      split_ifs at hlast <;> omega
    · rw [daysBeforeMonth_succ (by omega) (y + (if k < 10 then 0 else 1))]
      omega
  have hinYear : daysBefore (y % 400).toNat + (daysBeforeMonth k + (day - 1)) <
      yearEnd (y % 400).toNat := by
    rw [yearEnd_eq (by omega) (y / 400), hsplit]
    by_cases hfebruary : k = 11
    · subst hfebruary
      rw [show named 11 = 2 by rfl, if_neg (by decide)] at hlast
      rw [show daysBeforeMonth 11 = 337 by rfl]
      omega
    · have hbound := (daysIn_bounds (y + 1) 2).1
      have hmono : daysBeforeMonth (k + 1) ≤ 337 := by
        unfold daysBeforeMonth
        omega
      omega
  refine ⟨⟨y / 400, (y % 400).toNat, k, day - 1, by omega, hinMonth, hinYear⟩, ?_⟩
  rw [MarchDate.date, Date.mk.injEq]
  exact ⟨by rw [hsplit], rfl, Nat.sub_add_cancel hfirst⟩

/-- Every day can be counted from March. -/
theorem exists_number_eq (day : Int) : ∃ m : MarchDate, m.number = day := by
  have hn := dayInEra_lt day
  have hyear := yearInEra_lt hn
  obtain ⟨hle, -, hnext⟩ := daysBefore_yearInEra hn
  have hera : day + epochShift = (day + epochShift) / eraDays * eraDays + dayInEra day := by
    unfold dayInEra eraDays
    omega
  have hend : dayInEra day < yearEnd (yearInEra (dayInEra day)) := by
    unfold yearEnd
    split_ifs with hlast
    · exact hn
    · exact hnext _ (Nat.lt_succ_self _) (by omega)
  generalize dayInEra day = n at *
  generalize yearInEra n = year at *
  obtain ⟨inYear, rfl⟩ := Nat.exists_eq_add_of_le hle
  have hmonth : daysBeforeMonth ((5 * inYear + 2) / 153) ≤ inYear ∧
      inYear < daysBeforeMonth ((5 * inYear + 2) / 153 + 1) := by
    unfold daysBeforeMonth
    omega
  generalize (5 * inYear + 2) / 153 = month at *
  obtain ⟨offset, rfl⟩ := Nat.exists_eq_add_of_le hmonth.1
  refine ⟨⟨(day + epochShift) / eraDays, year, month, offset, hyear, hmonth.2, hend⟩, ?_⟩
  unfold number inEra
  dsimp only
  omega

end MarchDate

/-- A day is the day of its date. -/
theorem dayOf_dateOf (day : Int) : dayOf (dateOf day) = day := by
  obtain ⟨m, rfl⟩ := MarchDate.exists_number_eq day
  rw [m.dateOf_number, m.dayOf_date]

/-- A date that there is is the date of its day. -/
theorem dateOf_dayOf
    {date : Date}
    (h : date.Valid) :
    dateOf (dayOf date) = date := by
  obtain ⟨m, rfl⟩ := MarchDate.exists_date_eq h
  rw [m.dayOf_date, m.dateOf_number]

/-- Every day has a date that there is. -/
theorem valid_dateOf (day : Int) : (dateOf day).Valid := by
  obtain ⟨m, rfl⟩ := MarchDate.exists_number_eq day
  rw [m.dateOf_number]
  exact m.valid_date

/-- The days of a month follow one another. -/
theorem dayOf_withDay
    (date : Date)
    {day : Nat}
    (h : 1 ≤ day) :
    dayOf (date.withDay day) = dayOf (date.withDay 1) + (day - 1) := by
  unfold dayOf Date.withDay
  dsimp only
  push_cast
  omega

/-- Every month has a first day. -/
theorem day_nextMonth (date : Date) : (date.withDay 1).nextMonth.day = 1 := by
  have hlength := (daysIn_bounds (date.withDay 1).nextMonth.year
    (date.withDay 1).nextMonth.month).1
  unfold Date.nextMonth Date.withDay at *
  dsimp only at *
  omega

/-- The first of the next month comes as many days after the first of a month as the month
has days. -/
theorem dayOf_nextMonth
    {date : Date}
    (h : date.Valid) :
    dayOf (date.withDay 1).nextMonth =
      dayOf (date.withDay 1) + daysIn date.year date.month := by
  obtain ⟨year, month, day⟩ := date
  obtain ⟨hmonth, -⟩ := h
  have hfirst := day_nextMonth ⟨year, month, day⟩
  have hleap := isLeap_iff year
  dsimp only at hmonth
  unfold Date.withDay Date.nextMonth dayOf at *
  dsimp only at *
  rw [hfirst]
  by_cases hfebruary : month = 2
  · subst hfebruary
    simp only [daysIn, if_true, show ¬ 2 = 12 by decide, if_false, show ¬ 2 + 1 ≤ 2 by decide,
      show 2 ≤ 2 by decide, show ¬ 2 < 2 by decide, show 2 < 2 + 1 by decide, eraDays]
    split_ifs with hyes
    · have := hleap.1 hyes
      push_cast
      omega
    · have := mt hleap.2 hyes
      push_cast
      omega
  · -- The year that begins in March goes on, and only the days of its months before change.
    unfold daysIn eraDays
    obtain rfl | hlater : month = 1 ∨ 3 ≤ month := by omega
    · norm_num
      omega
    · obtain ⟨-, htwelve⟩ := hmonth
      interval_cases month <;> norm_num <;> omega

/-! ### The month of a day -/

/-- The first day of the month in which a day lies. -/
def firstOfMonth (day : Int) : Int :=
  dayOf ((dateOf day).withDay 1)

/-- Days in the month in which a day lies. -/
def monthLength (day : Int) : Nat :=
  daysIn (dateOf day).year (dateOf day).month

theorem valid_withDay
    (day : Int)
    {k : Nat}
    (hfirst : 1 ≤ k)
    (hlast : k ≤ monthLength day) :
    ((dateOf day).withDay k).Valid :=
  ⟨(valid_dateOf day).month, hfirst, hlast⟩

/-- A day lies in its month. -/
theorem firstOfMonth_bounds (day : Int) :
    day = firstOfMonth day + ((dateOf day).day - 1) ∧
      firstOfMonth day ≤ day ∧
      day < firstOfMonth day + monthLength day := by
  obtain ⟨-, hfirst, hlast⟩ := valid_dateOf day
  have hday := dayOf_withDay (dateOf day) hfirst
  have hself : dayOf ((dateOf day).withDay (dateOf day).day) = day := dayOf_dateOf day
  unfold firstOfMonth monthLength
  omega

/-- The days of a month have its year and its month. -/
theorem dateOf_of_month
    {day other : Int}
    (hfirst : firstOfMonth day ≤ other)
    (hlast : other < firstOfMonth day + monthLength day) :
    ∃ k, 1 ≤ k ∧ dateOf other = (dateOf day).withDay k := by
  obtain ⟨k, rfl⟩ : ∃ k : Nat, other = firstOfMonth day + k :=
    ⟨(other - firstOfMonth day).toNat, by omega⟩
  have hvalid := valid_withDay day (show 1 ≤ k + 1 by omega) (by omega)
  have hday := dayOf_withDay (dateOf day) (show 1 ≤ k + 1 by omega)
  refine ⟨k + 1, by omega, ?_⟩
  rw [← dateOf_dayOf hvalid, hday, firstOfMonth]
  push_cast
  ring_nf

theorem firstOfMonth_of_month
    {day other : Int}
    (hfirst : firstOfMonth day ≤ other)
    (hlast : other < firstOfMonth day + monthLength day) :
    firstOfMonth other = firstOfMonth day := by
  obtain ⟨k, -, hdate⟩ := dateOf_of_month hfirst hlast
  unfold firstOfMonth
  rw [hdate]
  rfl

theorem dateOf_firstOfMonth (day : Int) :
    dateOf (firstOfMonth day) = (dateOf day).withDay 1 := by
  have hlength := (daysIn_bounds (dateOf day).year (dateOf day).month).1
  exact dateOf_dayOf (valid_withDay day (Nat.le_refl 1) (by unfold monthLength; omega))

theorem valid_nextMonth
    {date : Date}
    (h : date.Valid) :
    (date.withDay 1).nextMonth.Valid := by
  obtain ⟨⟨hone, htwelve⟩, -⟩ := h
  constructor
  · unfold Date.nextMonth Date.withDay
    dsimp only
    split_ifs <;> omega
  · rw [day_nextMonth]
    have hlength := (daysIn_bounds (date.withDay 1).nextMonth.year
      (date.withDay 1).nextMonth.month).1
    omega

/-- After the last day of a month comes the first of the next one. -/
theorem dateOf_nextMonth (day : Int) :
    dateOf (firstOfMonth day + monthLength day) = ((dateOf day).withDay 1).nextMonth := by
  have hnext := dayOf_nextMonth (valid_dateOf day)
  unfold firstOfMonth monthLength
  rw [← hnext]
  exact dateOf_dayOf (valid_nextMonth (valid_dateOf day))

theorem firstOfMonth_nextMonth (day : Int) :
    firstOfMonth (firstOfMonth day + monthLength day) =
      firstOfMonth day + monthLength day := by
  have hbounds := (firstOfMonth_bounds (firstOfMonth day + monthLength day)).1
  rw [dateOf_nextMonth, day_nextMonth] at hbounds
  omega

end Calendar
end Timetable
