import Timetable.Proofs.Pattern.Overlooked
import Timetable.Proofs.Schedule.Progress

/-!
# Activations are sound

Whatever a search answers, it has looked at the clock: the answer comes after the
start, it is a whole second, and the clock shows at it a reading that is in all
masks and not beyond the last year.  This holds of both looks of a search, so it
does not matter which of them the answer comes from, nor what was passed over on
the way.  A reading that the clock skips is shown at no instant, so it is never
answered.

Main results:

* the answer of a search lies ahead of one of its looks (ahead_of_next);
* so it is sound, and so are all activations with which a search is fed; these
  never go back (sound_activations).
-/

namespace Timetable
namespace Pattern

variable (p : Pattern)

/-- A day of the month and a day of the week satisfy the rule of the two day masks: both
have to be held if either mask carries the star, and one of them otherwise. -/
def InDayMasks
    (dayOfMonth dayOfWeek : Nat) : Prop :=
  if p.dayOfMonth.has 63 = true ∨ p.dayOfWeek.has 63 = true then
    p.dayOfMonth.has dayOfMonth = true ∧ p.dayOfWeek.has dayOfWeek = true
  else
    p.dayOfMonth.has dayOfMonth = true ∨ p.dayOfWeek.has dayOfWeek = true

/-- Each part of a second of the clock is in its mask. -/
structure InMasks (second : Int) : Prop where
  month : p.month.has (Calendar.dateOf (Calendar.dayOfSecond second)).month = true
  day : p.InDayMasks (Calendar.dateOf (Calendar.dayOfSecond second)).day
    (Calendar.weekday (Calendar.dayOfSecond second))
  hour : p.hour.has (Calendar.timeOfSecond second / 3600) = true
  minute : p.minute.has (Calendar.timeOfSecond second / 60 % 60) = true
  second : p.second.has (Calendar.timeOfSecond second % 60) = true

/-- An instant is a sound activation: a whole second at which the clock shows a reading that
is in the masks. -/
structure Sound (i : Instant) : Prop where
  whole : i.subNanos = 0
  shown : ∃ r : Reading, p.location.reading? i = some r ∧ p.InMasks r.second

variable {p}

theorem dayRule_eq_true_iff
    {dayOfMonth dayOfWeek : Nat} :
    p.dayRule dayOfMonth dayOfWeek = true ↔ p.InDayMasks dayOfMonth dayOfWeek := by
  unfold dayRule Mask.hasStar Mask.starBit InDayMasks
  by_cases hstar : p.dayOfMonth.has 63 = true ∨ p.dayOfWeek.has 63 = true
  · rw [if_pos (by rwa [Bool.or_eq_true]), if_pos hstar, Bool.and_eq_true]
  · rw [if_neg (by rwa [Bool.or_eq_true]), if_neg hstar, Bool.or_eq_true]

/-- Accepted are the seconds of the clock that are in the masks. -/
theorem accepts_eq_true_iff
    {second : Int} :
    p.accepts second = true ↔ p.InMasks second := by
  simp only [accepts, acceptsDay, acceptsTime, Bool.and_eq_true, dayRule_eq_true_iff]
  constructor
  · rintro ⟨⟨hmonth, hday⟩, ⟨hhour, hminute⟩, hsecond⟩
    exact ⟨hmonth, hday, hhour, hminute, hsecond⟩
  · rintro ⟨hmonth, hday, hhour, hminute, hsecond⟩
    exact ⟨⟨hmonth, hday⟩, ⟨hhour, hminute⟩, hsecond⟩

theorem Due.sound
    {i : Instant}
    (h : p.Due i) :
    p.Sound i := by
  obtain ⟨hwhole, r, hr, haccepts⟩ := h
  exact ⟨hwhole, r, hr, accepts_eq_true_iff.1 haccepts⟩

/-- The answer of a search lies ahead of one of its looks. -/
theorem ahead_of_next
    (hz : p.location.clock.Ordered)
    {after i : Instant}
    (h : p.next after = .ok (some i)) :
    ∃ (reading : Reading) (start : Int),
      p.location.reading? after = some reading ∧
      p.Ahead after (reading.year + yearLimit) start i := by
  cases hreading : p.location.reading? after with
  | none => simp [next, hreading] at h
  | some reading =>
      rw [next_of_reading? hreading, Except.ok.injEq] at h
      obtain ⟨found, again, hfound, hagain, rfl⟩ := (nextFrom_eq_some_iff hz hreading).1 h
      split
      · exact ⟨reading, _, rfl, hagain.ahead⟩
      · exact ⟨reading, _, rfl, hfound.ahead⟩

/-- The answer of a search is not shown after the fifth year from that of the start. -/
theorem year_le_of_next
    (hz : p.location.clock.Ordered)
    {after i : Instant}
    (h : p.next after = .ok (some i)) :
    ∃ reading shown : Reading,
      p.location.reading? after = some reading ∧
      p.location.reading? i = some shown ∧
      shown.year ≤ reading.year + 5 := by
  obtain ⟨reading, start, hreading, hahead⟩ := ahead_of_next hz h
  obtain ⟨-, shown, hshown, -⟩ := hahead.due
  refine ⟨reading, shown, hreading, hshown, ?_⟩
  rw [Reading.year, Zone.second_of_reading? hshown]
  exact hahead.inLimit

/-- The schedule whose only leaf is the pattern. -/
def schedule (p : Pattern) : Schedule :=
  .expression (.pattern p)

/-- Fed with its activations a search goes forwards, and each of them is sound. -/
theorem sound_of_drain
    (hz : p.location.clock.Ordered)
    {n : Nat}
    {after : Instant}
    {l : List (Option Instant)}
    (h : (p.schedule.drain n after).answer = .ok l) :
    (after :: l.reduceOption).Pairwise (· < ·) ∧ ∀ i ∈ l.reduceOption, p.Sound i := by
  induction n generalizing after l with
  | zero =>
      obtain rfl : [] = l := by simpa [Schedule.drain] using h
      simp
  | succ n ih =>
      cases hnext : (p.schedule.next after).answer with
      | error x => simp [Schedule.drain_of_error n hnext] at h
      | ok answer =>
          cases answer with
          | none =>
              obtain rfl : [none] = l := by simpa [Schedule.drain_of_none n hnext] using h
              simp
          | some i =>
              obtain ⟨rest, hrest, rfl⟩ := Schedule.drain_eq_cons hnext h
              obtain ⟨hforwards, hsound⟩ := ih hrest
              obtain ⟨reading, start, -, hahead⟩ := ahead_of_next hz hnext
              rw [List.reduceOption_cons_of_some]
              refine ⟨List.pairwise_cons.2 ⟨?_, hforwards⟩, ?_⟩
              · intro j hj
                rcases List.mem_cons.1 hj with rfl | hj
                · exact hahead.later
                · exact Int.lt_trans hahead.later ((List.pairwise_cons.1 hforwards).1 j hj)
              · intro j hj
                rcases List.mem_cons.1 hj with rfl | hj
                · exact hahead.due.sound
                · exact hsound j hj

/-- **Every activation is sound.**  It comes after the start and is a whole second; the clock
shows at it a reading that is in all masks, in the fifth year after that of the start or
before.  Activations that are fed back go forwards, and are all shown by the clock. -/
theorem sound_activations
    (hz : p.location.clock.Ordered)
    (after : Instant) :
    (∀ i, p.next after = .ok (some i) →
      after < i ∧ p.Sound i ∧
        ∃ reading shown : Reading,
          p.location.reading? after = some reading ∧
          p.location.reading? i = some shown ∧
          shown.year ≤ reading.year + 5) ∧
      ∀ n l, (p.schedule.drain n after).answer = .ok l →
        (after :: l.reduceOption).Pairwise (· < ·) ∧ ∀ i ∈ l.reduceOption, p.Sound i := by
  refine ⟨?_, fun n l => sound_of_drain hz⟩
  intro i h
  obtain ⟨reading, start, -, hahead⟩ := ahead_of_next hz h
  exact ⟨hahead.later, hahead.due.sound, year_le_of_next hz h⟩

theorem sound_activations_quarterPastOne :
    quarterPastOne.location.clock.Ordered ∧
      quarterPastOne.next halfPastOne = .ok (some quarterInJuly) ∧
      halfPastOne < quarterInJuly ∧
      quarterPastOne.Sound quarterInJuly := by
  have hz : quarterPastOne.location.clock.Ordered :=
    Zone.ordered_of_mem_listed (z := Zone.newYork) (by simp [Zone.listed])
  have hanswer : (quarterPastOne.location.reading? halfPastOne).map
      (quarterPastOne.nextFrom halfPastOne) = some (some quarterInJuly) := by
    decide +kernel
  obtain ⟨reading, hreading, hnext⟩ := Option.map_eq_some_iff.1 hanswer
  have hnext : quarterPastOne.next halfPastOne = .ok (some quarterInJuly) := by
    rw [next_of_reading? hreading, hnext]
  obtain ⟨hlater, hsound, -⟩ := (sound_activations hz halfPastOne).1 _ hnext
  exact ⟨hz, hnext, hlater, hsound⟩

end Pattern
end Timetable
