import Mathlib.Tactic
import Timetable.Proofs.Schedule.Agreement

/-!
# Intervals to the nanosecond

A span is unsigned and longer than what instants are moved by: a length forwards
or backwards, of as many milliseconds as a signed word can say.  A cadence keeps
its interval as such a length, so the limits of three ranges meet: of spans, of
signed lengths, and of the calendar.  Up to these limits nothing is rounded, cut
off or replaced.

Main results:

* a span is refused as a cadence outside of two limits, and inside of them it comes
  back from the signed length as it was (ofSpan?_eq_tooShort_iff,
  ofSpan?_eq_tooLong_iff, toSpan?_signed);
* from inside its window an interval goes on by its length up to the end
  (drain_interval);
* both together, for every span (interval_exact).
-/

namespace Timetable

/-! ### Signed lengths -/

/-- A length of time forwards or backwards, of as many milliseconds as a signed word can say. -/
structure SignedSpan where
  nanos : Int
  inRange : -(longestCadence : Int) ≤ nanos ∧ nanos ≤ longestCadence
  deriving DecidableEq, Repr

namespace SignedSpan

/-- A span as a length forwards, if there is one so long. -/
def ofSpan? (d : Span) : Option SignedSpan :=
  if h : d.nanos ≤ longestCadence then some ⟨d.nanos, by omega⟩ else none

/-- A length forwards as a span. -/
def toSpan? (d : SignedSpan) : Option Span :=
  if 0 ≤ d.nanos then Span.ofNanos? d.nanos.toNat else none

/-- A span that is a length forwards comes back as it was. -/
theorem toSpan?_of_ofSpan?
    {d : Span}
    {l : SignedSpan}
    (h : ofSpan? d = some l) :
    l.toSpan? = some d := by
  unfold ofSpan? at h
  split_ifs at h with hlimit
  cases h
  rw [toSpan?, if_pos (Int.natCast_nonneg _), Int.toNat_natCast]
  exact dif_pos d.inRange

end SignedSpan

namespace Span

/-- The span is shorter than a second. -/
def TooShort (d : Span) : Prop :=
  d.seconds < 1

/-- The span is longer than 9223372036854775.807 seconds. -/
def TooLong (d : Span) : Prop :=
  9223372036854775 < d.seconds ∨ d.seconds = 9223372036854775 ∧ 807000000 < d.subNanos

variable {d : Span}

instance : Decidable d.TooShort :=
  inferInstanceAs (Decidable (_ < _))

instance : Decidable d.TooLong :=
  inferInstanceAs (Decidable (_ ∨ _))

theorem second_le_iff : second ≤ d ↔ ¬ d.TooShort := by
  have hparts := d.seconds_subNanos
  have hsub := d.subNanos_lt
  rw [le_iff]
  simp only [TooShort, second, nanosPerSecond] at *
  omega

theorem nanos_le_longestCadence_iff : d.nanos ≤ longestCadence ↔ ¬ d.TooLong := by
  have hparts := d.seconds_subNanos
  have hsub := d.subNanos_lt
  simp only [TooLong, longestCadence, nanosPerSecond, nanosPerMilli] at *
  omega

-- The longest interval fills its last millisecond, and one nanosecond more is too long.
example :
    ¬ TooLong ⟨9223372036854775807000000, by decide⟩ ∧
      TooLong ⟨9223372036854775807000001, by decide⟩ := by
  decide

end Span

namespace Cadence

/-- The interval as it is added to instants. -/
def signed (c : Cadence) : SignedSpan :=
  ⟨c.interval.nanos, by have := c.atMost; omega⟩

/-- The interval as it is read back: a second, if the signed length went backwards. -/
def readBack (c : Cadence) : Span :=
  c.signed.toSpan?.getD .second

theorem ofSpan?_interval_signed (c : Cadence) :
    SignedSpan.ofSpan? c.interval = some c.signed :=
  dif_pos c.atMost

/-- An interval is read back as it is, so no second ever takes its place. -/
theorem toSpan?_signed (c : Cadence) : c.signed.toSpan? = some c.interval :=
  SignedSpan.toSpan?_of_ofSpan? c.ofSpan?_interval_signed

theorem readBack_eq (c : Cadence) : c.readBack = c.interval := by
  rw [readBack, toSpan?_signed, Option.getD_some]

variable {d : Span}

theorem ofSpan?_eq_tooShort_iff :
    (∃ f, ofSpan? d = .error f ∧ f.code = .intervalTooShort) ↔ d.TooShort := by
  rw [← not_iff_not, ← Span.second_le_iff]
  unfold ofSpan?
  split_ifs with hlow hhigh
  · simp [hlow]
  · simp [hlow, Fault.code]
  · simp [hlow, Fault.code]

theorem ofSpan?_eq_tooLong_iff :
    (∃ f, ofSpan? d = .error f ∧ f.code = .invalidDuration) ↔ d.TooLong := by
  rw [← not_iff_not, ← Span.nanos_le_longestCadence_iff]
  unfold ofSpan?
  split_ifs with hlow hhigh
  · simp [hhigh]
  · simp [hhigh, Fault.code]
  · -- What is too short for a cadence is not too long for a signed length.
    have hsecond : ¬ nanosPerSecond ≤ d.nanos := hlow
    have hlimit : d.nanos ≤ longestCadence := by
      simp only [nanosPerSecond, longestCadence, nanosPerMilli] at *
      omega
    simp [hlimit, Fault.code]

/-- Between the limits a span becomes a cadence with that interval. -/
theorem ofSpan?_eq_ok
    (hshort : ¬ d.TooShort)
    (hlong : ¬ d.TooLong) :
    ∃ c, ofSpan? d = .ok c ∧ c.interval = d :=
  ⟨⟨d, Span.second_le_iff.2 hshort, Span.nanos_le_longestCadence_iff.2 hlong⟩,
    (dif_pos (Span.second_le_iff.2 hshort)).trans
      (dif_pos (Span.nanos_le_longestCadence_iff.2 hlong)), rfl⟩

end Cadence

/-! ### The next activation -/

namespace Instant

variable {i j : Instant} {n : Int}

/-- A shift forwards has no result only behind the end of the calendar. -/
theorem shift?_eq_none_iff (h : 0 ≤ n) : i.shift? n = none ↔ lastNano < i.nanos + n := by
  have hi := i.inCalendar
  unfold shift? ofNanos?
  split_ifs with hcalendar
  · simp
    omega
  · simp
    omega

end Instant

namespace Cadence

variable {c : Cadence} {i j : Instant}

theorem interval_pos (c : Cadence) : 0 < c.interval.nanos := by
  have h : nanosPerSecond ≤ c.interval.nanos := c.atLeast
  unfold nanosPerSecond at h
  omega

theorem next_eq_some_iff : c.next i = some j ↔ j.nanos = i.nanos + c.interval.nanos :=
  Instant.shift?_eq_some

theorem next_eq_none_iff : c.next i = none ↔ lastNano < i.nanos + c.interval.nanos :=
  Instant.shift?_eq_none_iff (Int.natCast_nonneg _)

end Cadence

theorem Window.contains_between
    {b e i : Instant} :
    (Window.mk (some b) (some e)).contains i = true ↔ b ≤ i ∧ i ≤ e := by
  simp [contains]

namespace Schedule

variable {c : Cadence} {b e i p : Instant}

theorem next_every (c : Cadence) (i : Instant) : ((every c).next i).answer = .ok (c.next i) :=
  rfl

/-- Before its window an interval begins with the window. -/
theorem next_interval_of_lt_opens
    (hbe : b ≤ e)
    (hp : p < b) :
    ((interval ⟨some b, some e⟩ c).next p).answer = .ok (some b) := by
  have hinside : (Window.mk (some b) (some e)).contains b = true :=
    Window.contains_between.2 ⟨le_refl b, hbe⟩
  have hover := Window.isOver_of_contains hinside hp.le
  simp only [next, ask, askInterval, Window.route, hover, if_pos hp, Bool.false_eq_true, if_false,
    askCadence]
  rw [Window.keep_eq_some_iff.2 ⟨rfl, hinside⟩]

/-- Inside its window an interval goes on as its cadence does, to what is in the window. -/
theorem next_interval_of_contains
    (hb : b ≤ i)
    (he : i ≤ e) :
    ((interval ⟨some b, some e⟩ c).next i).answer =
      .ok (Window.keep ⟨some b, some e⟩ (c.next i)) := by
  have hroute := Window.route_of_contains (Window.contains_between.2 ⟨hb, he⟩)
  simp only [next, ask, askInterval, hroute, askCadence]

/-- An interval goes on by its length if the window lasts so long. -/
theorem next_interval_eq_some
    (hb : b ≤ i)
    (hroom : i.nanos + c.interval.nanos ≤ e.nanos) :
    ∃ j : Instant, j.nanos = i.nanos + c.interval.nanos ∧ b ≤ j ∧
      ((interval ⟨some b, some e⟩ c).next i).answer = .ok (some j) := by
  have hpos := c.interval_pos
  have hi := i.inCalendar
  have he := e.inCalendar
  have hie : i ≤ e := by
    rw [Instant.le_iff]
    omega
  let j : Instant := ⟨i.nanos + c.interval.nanos, by omega, by omega⟩
  have hbj : b ≤ j := by
    rw [Instant.le_iff] at hb ⊢
    dsimp only [j]
    omega
  have hnext : c.next i = some j := Cadence.next_eq_some_iff.2 rfl
  refine ⟨j, rfl, hbj, ?_⟩
  rw [next_interval_of_contains hb hie, hnext,
    Window.keep_eq_some_iff.2 ⟨rfl, Window.contains_between.2 ⟨hbj, hroom⟩⟩]

/-- An interval ends if its window does not last for its length. -/
theorem next_interval_eq_none
    (hb : b ≤ i)
    (he : i ≤ e)
    (hnoroom : e.nanos < i.nanos + c.interval.nanos) :
    ((interval ⟨some b, some e⟩ c).next i).answer = .ok none := by
  rw [next_interval_of_contains hb he, Except.ok.injEq, Option.eq_none_iff_forall_ne_some]
  intro j hj
  obtain ⟨hnext, hinside⟩ := Window.keep_eq_some_iff.1 hj
  have hj := Cadence.next_eq_some_iff.1 hnext
  have hje := (Window.contains_between.1 hinside).2
  rw [Instant.le_iff] at hje
  omega

/-- Asking an interval does not change it. -/
theorem schedule_next_interval
    (w : Window)
    (c : Cadence)
    (i : Instant) :
    ((interval w c).next i).schedule = interval w c :=
  rfl

/-- Numbers from a first one on in equal steps, so many of them, and then none. -/
def rungs (first : Int) (step : Nat) (count : Nat) : List (Option Int) :=
  (List.iterate (· + (step : Int)) first count).map some ++ [none]

theorem rungs_zero
    (first : Int)
    (step : Nat) :
    rungs first step 0 = [none] :=
  rfl

theorem rungs_succ
    (first : Int)
    (step count : Nat) :
    rungs first step (count + 1) = some first :: rungs (first + step) step count :=
  rfl

/-- From inside its window an interval goes on by its length, as often as the window lets it,
and then ends. -/
theorem drain_interval
    {k : Nat}
    (hb : b ≤ i)
    (hlast : i.nanos + k * c.interval.nanos ≤ e.nanos)
    (hover : e.nanos < i.nanos + (k + 1) * c.interval.nanos)
    (n : Nat) :
    ∃ l, ((interval ⟨some b, some e⟩ c).drain n i).answer = .ok l ∧
      l.map (Option.map Instant.nanos) =
        (rungs (i.nanos + c.interval.nanos) c.interval.nanos k).take n := by
  have hpos := c.interval_pos
  induction n generalizing i k with
  | zero => exact ⟨[], rfl, rfl⟩
  | succ n ih =>
      cases k with
      | zero =>
          have hie : i ≤ e := by
            rw [Instant.le_iff]
            omega
          have hnone := next_interval_eq_none (c := c) hb hie (by omega)
          rw [drain_of_none n hnone, rungs_zero, List.take_succ_cons, List.take_nil]
          exact ⟨[none], rfl, rfl⟩
      | succ k =>
          rw [Nat.cast_succ, Int.add_mul, Int.one_mul] at hlast
          rw [Nat.cast_succ, Int.add_mul, Int.one_mul] at hover
          have hmore : 0 ≤ (k : Int) * c.interval.nanos := by positivity
          have hroom : i.nanos + c.interval.nanos ≤ e.nanos := by omega
          obtain ⟨j, hj, hbj, hnext⟩ := next_interval_eq_some hb hroom
          obtain ⟨rest, hrest, hmap⟩ := ih hbj (k := k) (by omega) (by omega)
          rw [drain_of_some n hnext, schedule_next_interval, hrest]
          refine ⟨some j :: rest, rfl, ?_⟩
          rw [rungs_succ, List.take_succ_cons, List.map_cons, hmap, Option.map_some, hj]

/-- As often as an interval fits into what is left of a window. -/
theorem exists_rung
    (c : Cadence)
    (hbe : b ≤ e) :
    ∃ k : Nat, b.nanos + k * c.interval.nanos ≤ e.nanos ∧
      e.nanos < b.nanos + (k + 1) * c.interval.nanos := by
  have hpos : (0 : Int) < c.interval.nanos := Int.natCast_pos.2 c.interval_pos
  have hlength : 0 ≤ e.nanos - b.nanos := Int.sub_nonneg.2 hbe
  refine ⟨((e.nanos - b.nanos) / c.interval.nanos).toNat, ?_⟩
  rw [Int.toNat_of_nonneg (Int.ediv_nonneg hlength hpos.le)]
  have hbelow := Int.ediv_mul_le (e.nanos - b.nanos) hpos.ne'
  have habove := Int.lt_ediv_add_one_mul_self (e.nanos - b.nanos) hpos
  constructor <;> omega

end Schedule

/-! ### All spans -/

namespace Cadence

/-- A cadence is a span to the nanosecond, as long as the calendar and its window last. -/
structure Exact (c : Cadence) (d : Span) : Prop where
  interval : c.interval = d
  signed : SignedSpan.ofSpan? d = some c.signed
  unsigned : c.signed.toSpan? = some d
  readBack : c.readBack = d
  next : ∀ p i : Instant,
    ((Schedule.every c).next p).answer = .ok (some i) ↔ i.nanos = p.nanos + d.nanos
  ends : ∀ p : Instant,
    ((Schedule.every c).next p).answer = .ok none ↔ lastNano < p.nanos + d.nanos
  drained : ∀ b e p : Instant, b ≤ e → p < b →
    ∃ k : Nat, b.nanos + k * d.nanos ≤ e.nanos ∧ e.nanos < b.nanos + (k + 1) * d.nanos ∧
      ∀ n, ∃ l,
        ((Schedule.interval ⟨some b, some e⟩ c).drain n p).answer = .ok l ∧
        l.map (Option.map Instant.nanos) = (Schedule.rungs b.nanos d.nanos (k + 1)).take n

theorem exact_interval (c : Cadence) : c.Exact c.interval where
  interval := rfl
  signed := c.ofSpan?_interval_signed
  unsigned := c.toSpan?_signed
  readBack := c.readBack_eq
  next p i := by rw [Schedule.next_every, Except.ok.injEq, next_eq_some_iff]
  ends p := by rw [Schedule.next_every, Except.ok.injEq, next_eq_none_iff]
  drained b e p hbe hp := by
    obtain ⟨k, hlast, hover⟩ := Schedule.exists_rung c hbe
    refine ⟨k, hlast, hover, ?_⟩
    intro n
    cases n with
    | zero => exact ⟨[], rfl, rfl⟩
    | succ n =>
        obtain ⟨l, hl, hmap⟩ := Schedule.drain_interval (le_refl b) hlast hover n
        rw [Schedule.drain_of_some n (Schedule.next_interval_of_lt_opens hbe hp),
          Schedule.schedule_next_interval, hl]
        refine ⟨some b :: l, rfl, ?_⟩
        rw [Schedule.rungs_succ, List.take_succ_cons, List.map_cons, hmap, Option.map_some]

/-- **An interval is exact up to its limits.**  A span shorter than a second and one longer than
9223372036854775.807 seconds are refused, each with its code.  Every other one becomes a cadence
that is the span to the nanosecond: so it reads back; it moves every instant by exactly its length,
if the calendar has the result; and in a window it goes from the begin in steps of its length to
the last of them that is not beyond the end, and then ends. -/
theorem interval_exact (d : Span) :
    ((∃ f, ofSpan? d = .error f ∧ f.code = .intervalTooShort) ↔ d.TooShort) ∧
      ((∃ f, ofSpan? d = .error f ∧ f.code = .invalidDuration) ↔ d.TooLong) ∧
      (¬ d.TooShort → ¬ d.TooLong → ∃ c, ofSpan? d = .ok c ∧ c.Exact d) := by
  refine ⟨ofSpan?_eq_tooShort_iff, ofSpan?_eq_tooLong_iff, ?_⟩
  intro hshort hlong
  obtain ⟨c, hc, rfl⟩ := ofSpan?_eq_ok hshort hlong
  exact ⟨c, hc, c.exact_interval⟩

/-- Five minutes. -/
def fiveMinutes : Span :=
  ⟨300 * 1000000000, by decide⟩

/-- A full hour of 18 January 2022. -/
def fullHour (hour : Fin 24) : Instant :=
  ⟨(1642464000 + 3600 * hour.val) * 1000000000, by
    have := hour.isLt
    simp only [firstNano, lastNano, Calendar.firstDay, Calendar.lastDay, Calendar.secondsPerDay,
      nanosPerSecond]
    omega⟩

/-- Every five minutes from three o'clock to five o'clock there are 25 activations. -/
theorem interval_exact_fiveMinutes :
    ¬ fiveMinutes.TooShort ∧ ¬ fiveMinutes.TooLong ∧
      ∃ c l,
        ofSpan? fiveMinutes = .ok c ∧
        ((Schedule.interval ⟨some (fullHour 3), some (fullHour 5)⟩ c).drain 30
          (fullHour 2)).answer = .ok l ∧
        l.map (Option.map Instant.nanos) =
          Schedule.rungs (fullHour 3).nanos fiveMinutes.nanos 25 := by
  have hshort : ¬ fiveMinutes.TooShort := by decide
  have hlong : ¬ fiveMinutes.TooLong := by decide
  obtain ⟨c, hc, hexact⟩ := (interval_exact fiveMinutes).2.2 hshort hlong
  obtain ⟨k, hlast, hover, hdrained⟩ :=
    hexact.drained (fullHour 3) (fullHour 5) (fullHour 2) (by decide) (by decide)
  obtain ⟨l, hl, hmap⟩ := hdrained 30
  have hk : k = 24 := by
    simp only [fullHour, fiveMinutes] at hlast hover
    norm_num at hlast hover
    omega
  subst hk
  exact ⟨hshort, hlong, c, l, hc, hl, hmap⟩

end Cadence

end Timetable
