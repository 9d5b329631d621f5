import Mathlib.Tactic
import Timetable.Proofs.Pattern.Activation

/-!
# Activations that a search overlooks

A search from an instant looks at the readings from the one after its own on,
and once more from an earlier one if the clock has been turned back by the
activation found.  What it answers is the earlier of the two leaders.  Readings
that are repeated lie before the start of both looks if the clock has gone
forwards again by the activation found, or if nothing is found at all; and a
leader is not the earliest if the clock is turned back on the way to it.

Main results:

* the answer is the earlier of the leaders of the two looks (nextFrom_eq_some_iff);
* a search misses nothing exactly if nothing is overlooked (complete_iff_not_overlooked);
* nothing is overlooked while the clock is not turned back (not_overlooked_of_monotone).
-/

namespace Timetable
namespace Pattern

variable (p : Pattern)

/-- The second from which on the readings are looked at in the end: if the clock has been
turned back by the activation found, the readings that it repeats come first. -/
def restart (after found : Instant) : Int :=
  if p.location.offsetAt found < p.location.offsetAt after ∧
      firstNano ≤ after.nanos + p.location.offsetAt found * nanosPerSecond then
    after.second + p.location.offsetAt found + 1
  else p.shownSecond after + 1

/-- An activation that is due after a start is overlooked by the search from there: nothing
lies ahead of the search, or it comes before both leaders. -/
inductive Overlooked
    (after : Instant)
    (reading : Reading)
    (i : Instant) : Prop where
  | nothingAhead
      (none : ∀ j, ¬ p.Ahead after (reading.year + yearLimit) (reading.second + 1) j)
      (shown : p.shownSecond i ≤ reading.second)
  | beforeLeaders
      (found again : Instant)
      (leads : p.Leads after (reading.year + yearLimit) (reading.second + 1) found)
      (leadsAgain : p.Leads after (reading.year + yearLimit) (p.restart after found) again)
      (lt_found : i < found)
      (lt_again : i < again)
      (passed : p.shownSecond i < p.restart after found ∨
        p.shownSecond again < p.shownSecond i)

/-- An answer is complete if no activation lies between the start and it; without an
activation, if there is none up to the end of the last year. -/
def Complete
    (after : Instant)
    (reading : Reading) :
    Option Instant → Prop
  | some found => ∀ i, p.Due i → after < i → ¬ i < found
  | none =>
      ∀ i, p.Due i → after < i →
        ¬ Calendar.yearOfSecond (p.shownSecond i) ≤ reading.year + yearLimit

variable {p}

theorem Leads.unique
    {after i j : Instant}
    {year start : Int}
    (hi : p.Leads after year start i)
    (hj : p.Leads after year start j) :
    i = j := by
  apply Instant.ext_nanos
  have hij := hi.first j hj.ahead
  have hji := hj.first i hi.ahead
  simp only [Instant.le_iff] at hij hji
  omega

/-- A later reading is not in an earlier year. -/
theorem yearOfSecond_mono
    {a b : Int}
    (h : a ≤ b) :
    Calendar.yearOfSecond a ≤ Calendar.yearOfSecond b := by
  have hdays : Calendar.dayOfSecond a ≤ Calendar.dayOfSecond b :=
    Int.ediv_le_ediv (by decide) h
  rw [Calendar.yearOfSecond, Calendar.year_dateOf_le_iff]
  have hlast := (Calendar.year_dateOf_le_iff (Calendar.dayOfSecond b)
    (Calendar.yearOfSecond b)).1 (Int.le_refl _)
  exact hdays.trans hlast

/-- A whole second after an instant is not in the second of that instant. -/
theorem second_lt_of_due
    {after i : Instant}
    (hdue : p.Due i)
    (hafter : after < i) :
    after.second < i.second := by
  have hwhole := Instant.nanos_of_subNanos_eq_zero hdue.1
  simp only [Instant.lt_iff, Instant.second, nanosPerSecond] at *
  omega

theorem restart_le
    (after found : Instant) :
    p.restart after found ≤ p.shownSecond after + 1 := by
  unfold restart shownSecond Zone.shownSecond
  split
  · rename_i h
    have := h.1
    simp only [Location.offsetAt] at this ⊢
    omega
  · exact Int.le_refl _

/-- An activation found is ahead also of the second look. -/
theorem Ahead.restart
    {after found : Instant}
    {year : Int}
    (h : p.Ahead after year (p.shownSecond after + 1) found) :
    p.Ahead after year (p.restart after found) found :=
  ⟨h.due, h.later, (restart_le after found).trans h.reached, h.inLimit⟩

/-- A start whose reading is in the calendar can be read with the lower offset of an
activation, unless that leads to before the calendar. -/
theorem shift?_of_turnedBack
    {after found : Instant}
    {reading : Reading}
    (hreading : p.location.reading? after = some reading)
    (hback : p.location.offsetAt found < p.location.offsetAt after)
    (hcalendar : firstNano ≤ after.nanos + p.location.offsetAt found * nanosPerSecond) :
    ∃ rewound : Instant,
      after.shift? (p.location.offsetAt found * nanosPerSecond) = some rewound ∧
      rewound.second = after.second + p.location.offsetAt found := by
  have hnanos : reading.face.nanos = after.nanos + p.location.offsetAt after * nanosPerSecond :=
    Zone.reading?_eq_some_iff.1 hreading
  have hlast : after.nanos + p.location.offsetAt found * nanosPerSecond ≤ lastNano := by
    have := reading.face.inCalendar.2
    simp only [nanosPerSecond] at *
    omega
  let rewound : Instant := ⟨_, hcalendar, hlast⟩
  refine ⟨rewound, Instant.shift?_eq_some.2 rfl, ?_⟩
  exact Int.add_mul_ediv_right _ _ (by decide)

/-- The second look is taken at the readings from the restart on. -/
theorem earlierRepeat_eq
    {after found : Instant}
    {reading : Reading}
    (year : Int)
    (hreading : p.location.reading? after = some reading) :
    p.earlierRepeat after found year =
      if p.restart after found ≤ reading.second then
        (p.firstResolved after year (p.restart after found)).filter fun again => again < found
      else none := by
  have hshown : reading.second = p.shownSecond after := Zone.second_of_reading? hreading
  unfold earlierRepeat
  dsimp only
  by_cases hback : p.location.offsetAt found < p.location.offsetAt after
  · rw [if_pos hback]
    by_cases hcalendar : firstNano ≤ after.nanos + p.location.offsetAt found * nanosPerSecond
    · obtain ⟨rewound, hshift, hsecond⟩ := shift?_of_turnedBack hreading hback hcalendar
      have hstart : p.restart after found = after.second + p.location.offsetAt found + 1 :=
        if_pos ⟨hback, hcalendar⟩
      rw [hshift, Option.bind_some, hsecond, hstart, if_pos]
      simp only [shownSecond, Zone.shownSecond, Location.offsetAt] at hshown hback ⊢
      omega
    · have hshift : after.shift? (p.location.offsetAt found * nanosPerSecond) = none := by
        unfold Instant.shift? Instant.ofNanos?
        rw [dif_neg fun h => hcalendar h.1]
      have hstart : p.restart after found = p.shownSecond after + 1 :=
        if_neg fun h => hcalendar h.2
      rw [hshift, hstart, if_neg (by omega)]
      rfl
  · have hstart : p.restart after found = p.shownSecond after + 1 :=
      if_neg fun h => hback h.1
    rw [if_neg hback, hstart, if_neg (by omega)]

/-- **The answer of a search is the earlier one of the leaders of its two looks.** -/
theorem nextFrom_eq_some_iff
    (hz : p.location.clock.Ordered)
    {after answer : Instant}
    {reading : Reading}
    (hreading : p.location.reading? after = some reading) :
    p.nextFrom after reading = some answer ↔
      ∃ found again,
        p.Leads after (reading.year + yearLimit) (reading.second + 1) found ∧
        p.Leads after (reading.year + yearLimit) (p.restart after found) again ∧
        answer = if again < found then again else found := by
  have hshown : reading.second = p.shownSecond after := Zone.second_of_reading? hreading
  cases hfound : p.firstResolved after (reading.year + yearLimit) (reading.second + 1) with
  | none =>
      rw [nextFrom_of_none hfound]
      constructor
      · intro h
        simp at h
      · rintro ⟨found, -, hleads, -⟩
        exact absurd hleads.ahead (not_ahead_of_firstResolved hz hfound found)
  | some first =>
      have hfirst := leads_of_firstResolved hz hfound
      -- The second look finds something, if only the first activation again.
      have hsecond : ∃ again,
          p.Leads after (reading.year + yearLimit) (p.restart after first) again ∧
          (p.earlierRepeat after first (reading.year + yearLimit)).getD first =
            if again < first then again else first := by
        rw [earlierRepeat_eq _ hreading]
        have hahead : p.Ahead after (reading.year + yearLimit) (p.restart after first) first := by
          refine Ahead.restart ?_
          rw [← hshown]
          exact hfirst.ahead
        by_cases hlook : p.restart after first ≤ reading.second
        · rw [if_pos hlook]
          cases hagain : p.firstResolved after (reading.year + yearLimit)
              (p.restart after first) with
          | none => exact absurd hahead (not_ahead_of_firstResolved hz hagain first)
          | some again =>
              refine ⟨again, leads_of_firstResolved hz hagain, ?_⟩
              by_cases hlt : again < first
              · simp [Option.filter, hlt]
              · simp [Option.filter, hlt]
        · rw [if_neg hlook]
          have hstart : p.restart after first = reading.second + 1 := by
            have := restart_le (p := p) after first
            omega
          refine ⟨first, by rwa [hstart], ?_⟩
          simp
      obtain ⟨again, hagain, hanswer⟩ := hsecond
      rw [nextFrom_of_some hfound, hanswer, Option.some.injEq]
      constructor
      · intro h
        exact ⟨first, again, hfirst, hagain, h.symm⟩
      · rintro ⟨found, other, hleads, hother, rfl⟩
        obtain rfl := hleads.unique hfirst
        rw [hother.unique hagain]

/-- A search without an answer has nothing ahead. -/
theorem nextFrom_eq_none_iff
    (hz : p.location.clock.Ordered)
    {after : Instant}
    {reading : Reading} :
    p.nextFrom after reading = none ↔
      ∀ j, ¬ p.Ahead after (reading.year + yearLimit) (reading.second + 1) j := by
  cases hfound : p.firstResolved after (reading.year + yearLimit) (reading.second + 1) with
  | none =>
      rw [nextFrom_of_none hfound]
      constructor
      · intro _
        exact not_ahead_of_firstResolved hz hfound
      · intro _
        rfl
  | some first =>
      rw [nextFrom_of_some hfound]
      constructor
      · intro h
        simp at h
      · intro h
        exact absurd (leads_of_firstResolved hz hfound).ahead (h first)

/-- What is due in the years of the search and not ahead of it has a reading behind its start. -/
theorem shownSecond_lt_of_not_ahead
    {after i : Instant}
    {year start : Int}
    (hdue : p.Due i)
    (hafter : after < i)
    (hyear : Calendar.yearOfSecond (p.shownSecond i) ≤ year)
    (hnot : ¬ p.Ahead after year start i) :
    p.shownSecond i < start := by
  by_contra hreached
  exact hnot ⟨hdue, hafter, by omega, hyear⟩

theorem passed_of_lt_leader
    {after again i : Instant}
    {year start : Int}
    (hleads : p.Leads after year start again)
    (hdue : p.Due i)
    (hafter : after < i)
    (hlt : i < again) :
    p.shownSecond i < start ∨ p.shownSecond again < p.shownSecond i := by
  by_contra hnot
  rw [not_or, not_lt, not_lt] at hnot
  obtain ⟨hreached, hshown⟩ := hnot
  have hyear := (yearOfSecond_mono hshown).trans hleads.ahead.inLimit
  have hfirst := hleads.first i ⟨hdue, hafter, hreached, hyear⟩
  simp only [Instant.le_iff, Instant.lt_iff] at hfirst hlt
  omega

/-- **A search answers, and misses nothing exactly if nothing is overlooked.** -/
theorem complete_iff_not_overlooked
    (hz : p.location.clock.Ordered)
    {after : Instant}
    {reading : Reading}
    (hreading : p.location.reading? after = some reading) :
    ∃ answer,
      p.next after = .ok answer ∧
      (p.Complete after reading answer ↔
        ∀ i, p.Due i → after < i → ¬ p.Overlooked after reading i) := by
  refine ⟨p.nextFrom after reading, next_of_reading? hreading, ?_⟩
  constructor
  · intro hcomplete i hdue hafter hover
    cases hover with
    | nothingAhead hnone hshown =>
        rw [(nextFrom_eq_none_iff hz).2 hnone] at hcomplete
        refine hcomplete i hdue hafter ((yearOfSecond_mono hshown).trans ?_)
        simp only [Reading.year, yearLimit]
        omega
    | beforeLeaders found again hleads hagain hfound hlt _ =>
        rw [(nextFrom_eq_some_iff hz hreading).2 ⟨found, again, hleads, hagain, rfl⟩]
          at hcomplete
        refine hcomplete i hdue hafter ?_
        split
        · exact hlt
        · exact hfound
  · intro hnot
    cases hanswer : p.nextFrom after reading with
    | none =>
        have hnone := (nextFrom_eq_none_iff hz).1 hanswer
        intro i hdue hafter hyear
        refine hnot i hdue hafter (.nothingAhead hnone ?_)
        have := shownSecond_lt_of_not_ahead hdue hafter hyear (hnone i)
        omega
    | some answer =>
        obtain ⟨found, again, hleads, hagain, rfl⟩ :=
          (nextFrom_eq_some_iff hz hreading).1 hanswer
        intro i hdue hafter hlt
        have hboth : i < found ∧ i < again := by
          split at hlt <;> simp only [Instant.lt_iff] at * <;> omega
        exact hnot i hdue hafter
          (.beforeLeaders found again hleads hagain hboth.1 hboth.2
            (passed_of_lt_leader hagain hdue hafter hboth.2))

/-- A quarter past one in New York, on the sixth of July and the sixth of November. -/
def quarterPastOne : Pattern where
  second := .single 0
  minute := .single 15
  hour := .single 1
  dayOfMonth := .single 6
  month := (Mask.single 7).union (.single 11)
  dayOfWeek := (Mask.between 0 6).union .star
  location := .zone Zone.newYork

/-- Half past one in New York on 6 November 2022, before the clock is turned back. -/
def halfPastOne : Instant :=
  ⟨1667712600 * 1000000000, by decide⟩

theorem complete_iff_not_overlooked_quarterPastOne :
    quarterPastOne.location.clock.Ordered ∧
      ∃ reading,
        quarterPastOne.location.reading? halfPastOne = some reading ∧
        ∃ answer,
          quarterPastOne.next halfPastOne = .ok answer ∧
          (quarterPastOne.Complete halfPastOne reading answer ↔
            ∀ i, quarterPastOne.Due i → halfPastOne < i →
              ¬ quarterPastOne.Overlooked halfPastOne reading i) := by
  have hz : quarterPastOne.location.clock.Ordered :=
    Zone.ordered_of_mem_listed (z := Zone.newYork) (by simp [Zone.listed])
  have hreading : quarterPastOne.location.reading? halfPastOne =
      some ⟨⟨1667698200 * 1000000000, by decide⟩⟩ := by
    decide +kernel
  exact ⟨hz, _, hreading, complete_iff_not_overlooked hz hreading⟩

/-- A quarter past one on the same day, after the clock was turned back. -/
def quarterRepeated : Instant :=
  ⟨1667715300 * 1000000000, by decide⟩

/-- A quarter past one on 6 July 2023, when the clock has gone forward again. -/
def quarterInJuly : Instant :=
  ⟨1688620500 * 1000000000, by decide⟩

/-- The search finds the activation in July and misses the one repeated before. -/
theorem quarterRepeated_missed :
    quarterPastOne.location.clock.Ordered ∧
      quarterPastOne.next halfPastOne = .ok (some quarterInJuly) ∧
      quarterPastOne.Due quarterRepeated ∧
      halfPastOne < quarterRepeated ∧
      quarterRepeated < quarterInJuly := by
  have hanswer : (quarterPastOne.location.reading? halfPastOne).map
      (quarterPastOne.nextFrom halfPastOne) = some (some quarterInJuly) := by
    decide +kernel
  obtain ⟨reading, hreading, hnext⟩ := Option.map_eq_some_iff.1 hanswer
  have hmissed : (quarterPastOne.location.reading? quarterRepeated).any
      (fun r => quarterPastOne.accepts r.second) = true := by
    decide +kernel
  obtain ⟨shown, hshown, haccepts⟩ := (Option.any_eq_true ..).1 hmissed
  refine ⟨Zone.ordered_of_mem_listed (z := Zone.newYork) (by simp [Zone.listed]), ?_,
    ⟨by decide, shown, hshown, haccepts⟩, by decide, by decide⟩
  rw [next_of_reading? hreading, hnext]

/-- Nothing is overlooked while the clock is not turned back. -/
theorem not_overlooked_of_monotone
    {after i : Instant}
    {reading : Reading}
    (hreading : p.location.reading? after = some reading)
    (hmono : ∀ a b, after ≤ a → a ≤ b → p.location.offsetAt a ≤ p.location.offsetAt b)
    (hdue : p.Due i)
    (hafter : after < i) :
    ¬ p.Overlooked after reading i := by
  have hshown : reading.second = p.shownSecond after := Zone.second_of_reading? hreading
  have hsecond := second_lt_of_due hdue hafter
  have hle : after ≤ i := Int.le_of_lt hafter
  have hoffset := hmono after i (Int.le_refl _) hle
  simp only [shownSecond, Zone.shownSecond, Location.offsetAt] at *
  intro hover
  cases hover with
  | nothingAhead _ h =>
      simp only [shownSecond, Zone.shownSecond] at h
      omega
  | beforeLeaders found again hleads hagain _ hlt hpassed =>
      rcases hpassed with h | h
      · have := restart_le (p := p) after found
        simp only [shownSecond, Zone.shownSecond] at h this
        omega
      · have hback := hmono i again hle (Int.le_of_lt hlt)
        simp only [shownSecond, Zone.shownSecond] at h
        have : i.second ≤ again.second := Int.ediv_le_ediv (by decide) (Int.le_of_lt hlt)
        omega

end Pattern
end Timetable
