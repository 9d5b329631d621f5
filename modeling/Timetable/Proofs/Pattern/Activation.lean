import Mathlib.Tactic
import Timetable.Proofs.Pattern.Least
import Timetable.Proofs.Zone.Showing

/-!
# What the search for an activation finds

A pattern is due at the whole seconds at which the clock shows an accepted
reading.  The search goes through the readings, not through time: among the
instants that lie ahead it finds the one whose reading comes first, and of two
instants with one reading the earlier.  Whether this is also the earliest of all
depends on the clock.

Main results:

* the search finds the leader of what lies ahead, and nothing only if nothing
  lies ahead (leads_of_firstResolved, not_ahead_of_firstResolved);
* an activation is a whole second (subNanos_of_next).
-/

namespace Timetable

namespace Instant

/-- An instant without nanoseconds beyond its second is that second. -/
theorem nanos_of_subNanos_eq_zero
    {i : Instant}
    (h : i.subNanos = 0) :
    i.nanos = i.second * nanosPerSecond := by
  simp only [subNanos, second, nanosPerSecond] at *
  omega

theorem subNanos_eq_zero_of_nanos
    {i : Instant}
    {s : Int}
    (h : i.nanos = s * nanosPerSecond) :
    i.subNanos = 0 ∧ i.second = s := by
  simp only [subNanos, second, nanosPerSecond] at *
  omega

end Instant

namespace Reading

theorem ofSecond?_eq_some_iff
    {s : Int}
    {r : Reading} :
    ofSecond? s = some r ↔ r.face.nanos = s * nanosPerSecond := by
  unfold ofSecond? Instant.ofParts?
  rw [Option.map_eq_some_iff]
  constructor
  · rintro ⟨face, hface, rfl⟩
    have := Instant.ofNanos?_eq_some.1 hface
    simpa using this
  · intro h
    exact ⟨r.face, Instant.ofNanos?_eq_some.2 (by simpa using h), rfl⟩

/-- A reading shows no day after the last one of the calendar. -/
theorem dayOfSecond_le_lastDay (r : Reading) :
    Calendar.dayOfSecond r.second ≤ Calendar.lastDay := by
  have h := r.face.inCalendar.2
  simp only [lastNano, Calendar.secondsPerDay, nanosPerSecond] at h
  simp only [Reading.second, Instant.second, Calendar.dayOfSecond, Calendar.secondsPerDay,
    nanosPerSecond]
  omega

end Reading

namespace Pattern

variable (p : Pattern)

/-- The second that the pattern's clock shows at an instant. -/
def shownSecond (i : Instant) : Int :=
  p.location.clock.shownSecond i

/-- The pattern is due at the whole seconds at which its clock shows an accepted reading. -/
def Due (i : Instant) : Prop :=
  i.subNanos = 0 ∧
    ∃ r : Reading, p.location.reading? i = some r ∧ p.accepts r.second = true

/-- What lies ahead of a search for activations after an instant: the pattern is due, and
the reading is between a start and the end of a year. -/
structure Ahead
    (after : Instant)
    (year start : Int)
    (i : Instant) : Prop where
  due : p.Due i
  later : after < i
  reached : start ≤ p.shownSecond i
  inLimit : Calendar.yearOfSecond (p.shownSecond i) ≤ year

/-- An instant leads what lies ahead if its reading comes first, and the instant itself
first among those with its reading. -/
structure Leads
    (after : Instant)
    (year start : Int)
    (i : Instant) : Prop where
  ahead : p.Ahead after year start i
  first : ∀ j, p.Ahead after year start j →
    p.shownSecond i < p.shownSecond j ∨ p.shownSecond i = p.shownSecond j ∧ i ≤ j

variable {p}

/-- Where the pattern is due the clock shows the reading of a whole second. -/
theorem Due.reading
    {i : Instant}
    (h : p.Due i) :
    ∃ r : Reading,
      p.location.clock.reading? i = some r ∧
      Reading.ofSecond? (p.shownSecond i) = some r ∧
      p.accepts (p.shownSecond i) = true ∧
      Calendar.dayOfSecond (p.shownSecond i) ≤ Calendar.lastDay := by
  obtain ⟨hwhole, r, hr, haccepts⟩ := h
  have hshown : r.second = p.shownSecond i := Zone.second_of_reading? hr
  refine ⟨r, hr, ?_, by rwa [← hshown], by rw [← hshown]; exact r.dayOfSecond_le_lastDay⟩
  rw [Reading.ofSecond?_eq_some_iff, Zone.reading?_eq_some_iff.1 hr,
    Instant.nanos_of_subNanos_eq_zero hwhole, shownSecond, Zone.shownSecond, Int.add_mul]

/-- Where the clock shows the reading of a whole second, it is a whole second. -/
theorem subNanos_of_reading?
    {z : Zone}
    {i : Instant}
    {r : Reading}
    {s : Int}
    (hr : Reading.ofSecond? s = some r)
    (hi : z.reading? i = some r) :
    i.subNanos = 0 ∧ z.shownSecond i = s := by
  have hface := Reading.ofSecond?_eq_some_iff.1 hr
  have hnanos := Zone.reading?_eq_some_iff.1 hi
  have hi : i.nanos = (s - z.offsetAt i) * nanosPerSecond := by
    rw [Int.sub_mul]
    omega
  obtain ⟨hwhole, hsecond⟩ := Instant.subNanos_eq_zero_of_nanos hi
  refine ⟨hwhole, ?_⟩
  rw [Zone.shownSecond, hsecond]
  omega

/-- **The search finds the leader of what lies ahead, and nothing only if nothing does.** -/
theorem firstResolved_spec
    (hz : p.location.clock.Ordered)
    (after : Instant)
    (year start : Int) :
    (∀ i, p.firstResolved after year start = some i → p.Leads after year start i) ∧
      (p.firstResolved after year start = none → ∀ i, ¬ p.Ahead after year start i) := by
  fun_induction firstResolved p after year start with
  | case1 start hnone =>
      refine ⟨by simp, ?_⟩
      intro _ i hi
      obtain ⟨r, -, -, haccepts, hday⟩ := hi.due.reading
      have hleast := p.leastFrom_nextReading? start year
      rw [hnone] at hleast
      exact hleast _ hi.reached ⟨hi.inLimit, hday, haccepts⟩
  | case2 start s hs found hfound =>
      refine ⟨?_, by simp⟩
      rintro i ⟨⟩
      have hleast := p.leastFrom_nextReading? start year
      rw [hs] at hleast
      obtain ⟨hle, ⟨hyear, hday, haccepts⟩, hfirst⟩ := hleast
      obtain ⟨r, hr, hresolve⟩ := Option.bind_eq_some_iff.1 hfound
      obtain ⟨hshows, hafter, hearliest⟩ := (Zone.resolveAfter_eq_some_iff hz).1 hresolve
      obtain ⟨hwhole, hshown⟩ := subNanos_of_reading? hr hshows
      have hshown : p.shownSecond found = s := hshown
      have hsecond : r.second = s := by rw [Zone.second_of_reading? hshows, ← hshown]; rfl
      refine ⟨⟨⟨hwhole, r, hshows, by rwa [hsecond]⟩, hafter, by rwa [hshown], by rwa [hshown]⟩, ?_⟩
      intro j hj
      obtain ⟨rj, hrj, hofj, haccj, hdayj⟩ := hj.due.reading
      have hsj := hfirst _ hj.reached ⟨hj.inLimit, hdayj, haccj⟩
      rw [hshown]
      rcases Int.lt_or_eq_of_le hsj with hlt | heq
      · exact Or.inl hlt
      · rw [← heq, hr] at hofj
        cases hofj
        exact Or.inr ⟨heq, hearliest j hrj hj.later⟩
  | case3 start s hs hnone ih =>
      have hleast := p.leastFrom_nextReading? start year
      rw [hs] at hleast
      obtain ⟨hle, -, hfirst⟩ := hleast
      -- No instant shows the least accepted reading, so what is ahead lies behind it.
      have hskip : ∀ i, p.Ahead after year start i ↔ p.Ahead after year (s + 1) i := by
        intro i
        constructor
        · intro hi
          obtain ⟨r, hr, hof, haccepts, hday⟩ := hi.due.reading
          have hsi := hfirst _ hi.reached ⟨hi.inLimit, hday, haccepts⟩
          refine ⟨hi.due, hi.later, ?_, hi.inLimit⟩
          rcases Int.lt_or_eq_of_le hsi with hlt | heq
          · exact hlt
          · rw [heq, hof, Option.bind_some] at hnone
            exact absurd hi.later ((Zone.resolveAfter_eq_none_iff hz).1 hnone i hr)
        · intro hi
          exact ⟨hi.due, hi.later, by have := hi.reached; omega, hi.inLimit⟩
      constructor
      · intro i hi
        obtain ⟨hahead, hlead⟩ := ih.1 i hi
        exact ⟨(hskip i).2 hahead, fun j hj => hlead j ((hskip j).1 hj)⟩
      · intro h i hi
        exact ih.2 h i ((hskip i).1 hi)

theorem leads_of_firstResolved
    (hz : p.location.clock.Ordered)
    {after i : Instant}
    {year start : Int}
    (h : p.firstResolved after year start = some i) :
    p.Leads after year start i :=
  (firstResolved_spec hz after year start).1 i h

theorem not_ahead_of_firstResolved
    (hz : p.location.clock.Ordered)
    {after : Instant}
    {year start : Int}
    (h : p.firstResolved after year start = none)
    (i : Instant) :
    ¬ p.Ahead after year start i :=
  (firstResolved_spec hz after year start).2 h i

/-- The search finds a whole second, whatever the order of the clock's changes. -/
theorem subNanos_of_firstResolved
    {after i : Instant}
    {year start : Int}
    (h : p.firstResolved after year start = some i) :
    i.subNanos = 0 := by
  fun_induction firstResolved p after year start with
  | case1 => simp at h
  | case2 start s hs found hfound =>
      cases h
      obtain ⟨r, hr, hresolve⟩ := Option.bind_eq_some_iff.1 hfound
      have hmem : i ∈ p.location.clock.instantsShowing r := List.mem_of_find?_eq_some hresolve
      obtain ⟨offset, -, hshift⟩ := List.mem_filterMap.1 hmem
      have hnanos := Instant.shift?_eq_some.1 hshift
      have hface := Reading.ofSecond?_eq_some_iff.1 hr
      have hi : i.nanos = (s - offset) * nanosPerSecond := by
        rw [Int.sub_mul]
        omega
      exact (Instant.subNanos_eq_zero_of_nanos hi).1
  | case3 _ _ _ _ ih => exact ih h

theorem next_of_reading?
    {after : Instant}
    {reading : Reading}
    (h : p.location.reading? after = some reading) :
    p.next after = .ok (p.nextFrom after reading) := by
  simp only [next, h]

theorem nextFrom_of_none
    {after : Instant}
    {reading : Reading}
    (h : p.firstResolved after (reading.year + yearLimit) (reading.second + 1) = none) :
    p.nextFrom after reading = none := by
  simp only [nextFrom, h]

theorem nextFrom_of_some
    {after found : Instant}
    {reading : Reading}
    (h : p.firstResolved after (reading.year + yearLimit) (reading.second + 1) = some found) :
    p.nextFrom after reading =
      some ((p.earlierRepeat after found (reading.year + yearLimit)).getD found) := by
  simp only [nextFrom, h]

/-- A repeated activation is found by a search from an earlier reading. -/
theorem firstResolved_of_earlierRepeat
    {after found again : Instant}
    {year : Int}
    (h : p.earlierRepeat after found year = some again) :
    ∃ start, p.firstResolved after year start = some again := by
  unfold earlierRepeat at h
  dsimp only at h
  split at h
  · obtain ⟨rewound, -, hagain⟩ := Option.bind_eq_some_iff.1 h
    exact ⟨_, (Option.filter_eq_some_iff.1 hagain).1⟩
  · simp at h

/-- The next activation is a result of the search through the readings. -/
theorem firstResolved_of_next
    {after i : Instant}
    (h : p.next after = .ok (some i)) :
    ∃ year start, p.firstResolved after year start = some i := by
  cases hreading : p.location.reading? after with
  | none => simp [next, hreading] at h
  | some reading =>
      rw [next_of_reading? hreading, Except.ok.injEq] at h
      cases hfound : p.firstResolved after (reading.year + yearLimit) (reading.second + 1) with
      | none => simp [nextFrom_of_none hfound] at h
      | some found =>
          rw [nextFrom_of_some hfound, Option.some.injEq] at h
          cases hagain : p.earlierRepeat after found (reading.year + yearLimit) with
          | none =>
              rw [hagain, Option.getD_none] at h
              exact ⟨_, _, h ▸ hfound⟩
          | some again =>
              rw [hagain, Option.getD_some] at h
              obtain ⟨start, hstart⟩ := firstResolved_of_earlierRepeat hagain
              exact ⟨_, start, h ▸ hstart⟩

/-- The next activation is a whole second. -/
theorem subNanos_of_next
    {after i : Instant}
    (h : p.next after = .ok (some i)) :
    i.subNanos = 0 := by
  obtain ⟨year, start, hfound⟩ := firstResolved_of_next h
  exact subNanos_of_firstResolved hfound

/-- The next activation comes after the start. -/
theorem lt_of_next
    {after i : Instant}
    (h : p.next after = .ok (some i)) :
    after < i := by
  obtain ⟨year, start, hfound⟩ := firstResolved_of_next h
  exact lt_of_firstResolved hfound

end Pattern
end Timetable
