import Timetable.Proofs.Executor.Pacing

/-!
# A timer is faithful to its schedule

While the engine runs a timer activates what its schedule says, and all of it: it
is fed with its own activations from the instant at which it sets out, and when
it waits for the clock the next of them is not there yet.  It comes to wait,
since every activation brings it nearer to the present.

Main results:

* from the instant at which it sets out a timer stands where feeding its schedule
  has led (stands_of_course);
* every move of a timer brings it nearer to rest (Drive.unrest_lt);
* the activations of a timer are those of its schedule, none lost and none twice
  (faithful_of_course).
-/

namespace Timetable
namespace Executor

/-- A timer sets out from an instant: from the present if it is new or has been held, and from
where it was if it looks again whether the engine runs. -/
inductive SetsOut
    (e : Executor)
    (t : Timer) :
    Instant → Prop
  | new
      (phase : t.phase = .fresh) :
      SetsOut e t e.wallNow
  | held
      (phase : t.phase = .waiting true) :
      SetsOut e t e.wallNow
  | again
      (phase : t.phase = .resting) :
      SetsOut e t t.previous

/-- How a timer stands that has set out with a schedule from an instant and has dispatched a
list of activations since then: the schedule has been fed with them, and with the next one
too while the timer has it before it. -/
def Stands
    (s : Schedule)
    (r : Instant)
    (l : List Instant)
    (e : Executor)
    (t : Timer) :
    Prop :=
  match t.phase with
  | .idle => False
  | .fresh | .waiting true => t.schedule = s ∧ e.wallNow = r ∧ l = []
  | .resting | .waiting false | .asking => s.Fed r l t.schedule t.previous
  | .armed i _ | .woken i | .counted i =>
      ∃ s' p, s.Fed r l s' p ∧ (s'.next p).answer = .ok (some i) ∧
        t.schedule = (s'.next p).schedule
  | .finished => ∃ s' p, s.Fed r l s' p ∧ ∀ i, (s'.next p).answer ≠ .ok (some i)

variable {s : Schedule} {r : Instant}

theorem SetsOut.stands
    {e : Executor}
    {t : Timer}
    (h : e.SetsOut t r) :
    Stands t.schedule r [] e t := by
  cases h with
  | new phase => simp [Stands, phase]
  | held phase => simp [Stands, phase]
  | again phase =>
      simp only [Stands, phase]
      exact .nil

/-- A timer that nobody closes stands by its schedule after each of its moves while the engine
runs. -/
theorem Stands.drive
    {l : List Instant}
    {e e' : Executor}
    {n : Nat}
    {t t' : Timer}
    (h : Stands s r l e t)
    (hdriven : e.Driven e' n t t')
    (unclosed : e.isCancelled t.token = false)
    (running : e.running = true)
    (punctual : e.Punctual t)
    (counted : ∀ i, t.phase = .counted i → t.previous = i) :
    Stands s r (l ++ dispatches (e.deeds t)) e' t' := by
  -- Where the timer stands is a matter of its phase, so each move has one case to look at.
  rw [dispatches_deeds]
  cases hdriven.drive with
  | close _ cancelled => simp [cancelled] at unclosed
  | begin phase =>
      simp only [Stands, phase, List.append_nil] at h ⊢
      obtain ⟨rfl, rfl, rfl⟩ := h
      exact .nil
  | look phase =>
      simp only [Stands, phase, running, List.append_nil, Bool.not_true] at h ⊢
      exact h
  | @resume paused phase _ =>
      cases paused with
      | true =>
          simp only [Stands, phase, List.append_nil] at h ⊢
          obtain ⟨rfl, rfl, rfl⟩ := h
          rw [if_pos trivial, Instant.latest_eq_right punctual.previous]
          exact .nil
      | false =>
          simp only [Stands, phase, List.append_nil] at h ⊢
          exact h
  | crash phase answer =>
      simp only [Stands, phase, List.append_nil] at h ⊢
      exact ⟨_, _, h, by simp [answer]⟩
  | exhaust phase answer =>
      simp only [Stands, phase, List.append_nil] at h ⊢
      exact ⟨_, _, h, by simp [answer]⟩
  | arm phase answer =>
      simp only [Stands, phase, List.append_nil] at h ⊢
      exact ⟨_, _, h, answer, rfl⟩
  | wake phase isDue =>
      simp only [Stands, phase, List.append_nil] at h ⊢
      exact h
  | count phase _ =>
      simp only [Stands, phase, List.append_nil] at h ⊢
      exact h
  | drop phase stopped => simp [stopped] at running
  | @activate i phase =>
      simp only [Stands, phase] at h ⊢
      obtain ⟨s', p, fed, answer, schedule⟩ := h
      rw [schedule, counted i phase]
      exact fed.snoc answer

/-- A timer that cannot move while the engine runs is over, or waits for the clock. -/
theorem phase_of_still
    {e : Executor}
    {n : Nat}
    {t : Timer}
    (ht : e.timers[n]? = some t)
    (running : e.running = true)
    (still : e.timerMoves n = []) :
    t.phase = .idle ∨ t.phase = .finished ∨
      ∃ i due, t.phase = .armed i due ∧ e.nanos < due := by
  unfold timerMoves at still
  rw [ht] at still
  cases hphase : t.phase with
  | idle => exact Or.inl rfl
  | finished => exact Or.inr (Or.inl rfl)
  | armed i due =>
      simp only [hphase, armedMoves, List.append_eq_nil_iff] at still
      refine Or.inr (Or.inr ⟨i, due, rfl, ?_⟩)
      by_contra hdue
      simp [Nat.not_lt.1 hdue] at still
  | waiting paused =>
      simp only [hphase, running] at still
      split at still <;> simp at still
  | fresh | resting | asking | woken | counted => simp [hphase] at still

/-- What happens beside a timer does not make it stand otherwise. -/
theorem Stands.aside
    {l : List Instant}
    {e e' : Executor}
    {n : Nat}
    {t : Timer}
    (h : Stands s r l e t)
    (ht : e.timers[n]? = some t)
    (haside : e.Aside e' n)
    (running : e.running = true) :
    Stands s r l e' t := by
  have hnow : t.phase = .fresh ∨ t.phase = .waiting true → e'.wallNow = e.wallNow := by
    intro hphase
    rcases haside.clock with hnow | ⟨-, hstill⟩
    · rw [wallNow, wallNow, haside.wall, hnow]
    · rcases phase_of_still ht running hstill with h | h | ⟨i, due, h, -⟩ <;>
        simp [h] at hphase
  unfold Stands at h ⊢
  cases hphase : t.phase with
  | waiting paused =>
      cases paused with
      | true => simpa [hphase, hnow (.inr hphase)] using h
      | false => simpa [hphase] using h
  | fresh => simpa [hphase, hnow (.inl hphase)] using h
  | idle => simp [hphase] at h
  | resting | asking | armed | woken | counted | finished => simpa [hphase] using h

/-- **From the instant at which it sets out a timer stands where feeding its schedule has led**,
as long as the engine runs. -/
theorem stands_of_course
    {j : JobId}
    {n : Nat}
    {m d : Executor}
    {l₁ l₂ : List Deed}
    {t : Timer}
    (hm : Kept j l₁ m t)
    (ht : m.timers[n]? = some t)
    (course : m.Course n l₂ d)
    (setsOut : m.SetsOut t r)
    (running : m.running = true)
    (unstopped : .stopped ∉ l₂)
    (pace : InPace d.wall d.now) :
    ∃ t', d.timers[n]? = some t' ∧ Kept j (l₁ ++ l₂) d t' ∧ d.running = true ∧
      Stands t.schedule r (dispatches l₂) d t' := by
  -- The engine runs at every state of the course: it did at first, and was not stopped.
  have hcourse := course.invariant
    (P := fun l e t' => Kept j (l₁ ++ l) e t' ∧ (.stopped ∉ l → InPace e.wall e.now →
      e.running = true ∧ Stands t.schedule r (dispatches l) e t')) ht ?_ ?_ ?_
  · obtain ⟨t', ht', hkept, hstands⟩ := hcourse
    exact ⟨t', ht', hkept, hstands unstopped pace⟩
  · rw [List.append_nil]
    exact ⟨hm, fun _ _ => ⟨running, setsOut.stands⟩⟩
  · rintro l e e' t₁ t₂ ⟨hkept, hstands⟩ - unclosed hdriven
    rw [← List.append_assoc, dispatches_append]
    refine ⟨hkept.drive unclosed hdriven, ?_⟩
    intro hunstopped hpace
    have hpace' := hdriven.timeless.inPace_iff.1 hpace
    obtain ⟨hrunning, hstands⟩ :=
      hstands (fun h => hunstopped (List.mem_append_left _ h)) hpace'
    refine ⟨hdriven.running.trans hrunning, ?_⟩
    exact hstands.drive hdriven unclosed hrunning (hkept.punctual hpace') hkept.counted
  · rintro l e e' t₁ ⟨hkept, hstands⟩ ht₁ haside
    rw [← List.append_assoc, dispatches_append, dispatches_stops, List.append_nil]
    refine ⟨hkept.aside ht₁ haside, ?_⟩
    intro hunstopped hpace
    obtain ⟨hrunning, hstands⟩ :=
      hstands (fun h => hunstopped (List.mem_append_left _ h)) (haside.inPace hpace)
    refine ⟨?_, hstands.aside ht₁ haside hrunning⟩
    have hstops : .stopped ∉ e.stops e' := fun h => hunstopped (List.mem_append_right _ h)
    simpa [stops, hrunning] using hstops

/-- When a timer that stands by its schedule cannot move, it has dispatched exactly what its
schedule says up to now. -/
theorem Stands.exactly
    {j : JobId}
    {n : Nat}
    {d : Executor}
    {l l' : List Deed}
    {t : Timer}
    (h : Stands s r (dispatches l') d t)
    (kept : Kept j (l ++ l') d t)
    (ht : d.timers[n]? = some t)
    (running : d.running = true)
    (pace : InPace d.wall d.now)
    (still : d.timerMoves n = []) :
    s.Exactly r d.wallNow (dispatches l') := by
  have hpunctual := kept.punctual pace
  have hbefore : ∀ i ∈ dispatches l', i ≤ d.wallNow := by
    intro i hi
    have hpast : t.Past i := by
      refine kept.past i ?_
      rw [dispatches_append]
      exact List.mem_append_right _ hi
    exact Int.le_trans hpast.previous hpunctual.previous
  have hnow : d.wallNow.nanos = (d.wall 0).nanos + d.nanos := by
    simpa [wallNow, nanos] using pace d.now (Nat.le_refl _)
  unfold Stands at h
  rcases phase_of_still ht running still with hphase | hphase | ⟨i, due, hphase, hdue⟩
  · simp [hphase] at h
  · simp only [hphase] at h
    obtain ⟨s', p, fed, answer⟩ := h
    exact fed.exactly hbefore fun i hi => absurd hi (answer i)
  · simp only [hphase] at h
    obtain ⟨s', p, fed, answer, -⟩ := h
    refine fed.exactly hbefore ?_
    intro k hk
    obtain rfl : i = k := by simpa [answer] using hk
    rcases hpunctual.armed i due hphase with hi | ⟨hpassed, -⟩
    · rw [Instant.lt_iff]
      omega
    · omega

/-- How far an instant lies behind the present, weighed against the moves of a timer from one
activation to the next. -/
def lag
    (e : Executor)
    (i : Instant) :
    Nat :=
  (e.wallNow.nanos + 1 - i.nanos).toNat * 10

/-- How far a timer is from rest. -/
def unrest
    (e : Executor)
    (t : Timer) :
    Nat :=
  match t.phase with
  | .fresh => 20
  | .armed i _ => e.lag i + 10
  | .woken i => e.lag i + 9
  | .counted i => e.lag i + 8
  | .resting => e.lag t.previous + 7
  | .waiting _ => e.lag t.previous + 6
  | .asking => e.lag t.previous + 4
  | .idle | .finished => 0

/-- **Every move of a timer brings it nearer to rest.** -/
theorem Drive.unrest_lt
    {e : Executor}
    {t t' : Timer}
    (h : e.Drive t t')
    (unclosed : e.isCancelled t.token = false)
    (advances : t.schedule.Advances)
    (punctual : e.Punctual t)
    (counted : ∀ i, t.phase = .counted i → t.previous = i) :
    e.unrest t' < e.unrest t := by
  have hprevious := punctual.previous
  rw [Instant.le_iff] at hprevious
  cases h with
  | close _ cancelled => simp [cancelled] at unclosed
  | begin phase =>
      simp only [unrest, phase, lag]
      omega
  | look phase | wake phase | count phase =>
      simp only [unrest, phase]
      omega
  | @resume paused phase running =>
      cases paused with
      | true =>
          simp only [unrest, phase, lag, if_true, Instant.latest_eq_right punctual.previous]
          omega
      | false =>
          simp only [unrest, phase, Bool.false_eq_true, if_false]
          omega
  | crash phase answer | exhaust phase answer =>
      simp only [unrest, phase]
      omega
  | arm phase answer =>
      have hlater := advances.lt answer
      rw [Instant.lt_iff] at hlater
      simp only [unrest, phase, lag]
      omega
  | @drop i phase stopped =>
      have hi := punctual.woken i phase
      simp only [unrest, phase, lag, Instant.latest_eq_right hi]
      rw [Instant.le_iff] at hi
      omega
  | @activate i phase =>
      simp only [unrest, phase, counted i phase]
      omega

/-- A timer that nobody closes makes so many moves at one moment, and no more. -/
theorem settles_of_kept
    {j : JobId}
    {n : Nat}
    {l : List Deed}
    {d : Executor}
    {t : Timer}
    (kept : Kept j l d t)
    (ht : d.timers[n]? = some t)
    (unclosed : d.isCancelled t.token = false)
    (pace : InPace d.wall d.now) :
    Acc (fun b a => b ∈ a.timerMoves n) d := by
  induction hk : d.unrest t using Nat.strong_induction_on generalizing l d t with
  | h k ih =>
      refine ⟨d, ?_⟩
      intro d' hmove
      obtain ⟨t', hdriven⟩ := driven_of_entry ht hmove
      have hlt := hdriven.drive.unrest_lt unclosed kept.advances (kept.punctual pace)
        kept.counted
      have hsame : d'.unrest t' = d.unrest t' := by
        simp only [unrest, lag, hdriven.timeless.wallNow]
      refine ih _ ?_ (kept.drive unclosed hdriven) (hdriven.entry ht) ?_
        (hdriven.timeless.inPace_iff.2 pace) rfl
      · rwa [hsame, ← hk]
      · rw [hdriven.timeless.isCancelled, hdriven.drive.token]
        exact unclosed

/-- The activations of a timer that was armed in a state for a job are those of its schedule:
so it is after a course with some deeds. -/
structure Faithful
    (j : JobId)
    (n : Nat)
    (armed : Executor)
    (l : List Deed)
    (d : Executor) :
    Prop where
  /-- The activations go forwards, so none of them is dispatched twice. -/
  increasing : (dispatches l).Pairwise (· < ·)
  /-- The timer starts one run for each activation that it dispatches. -/
  once : ∀ t d', d.timers[n]? = some t → d' ∈ d.timerMoves n →
    d'.runs = d.runs ++ (dispatches (d.deeds t)).map fun _ => d.activation j
  /-- An activation is dispatched at its instant or later, and only while the engine runs. -/
  inTime : ∀ t i, d.timers[n]? = some t → .dispatched i ∈ d.deeds t →
    i ≤ d.wallNow ∧ d.running = true
  /-- A timer that waits for the engine while that stands still sets out from the present. -/
  waits : ∀ t paused, d.timers[n]? = some t → t.phase = .waiting paused → d.running = false →
    d.SetsOut t d.wallNow
  /-- A timer that drops an activation sets out again from the present. -/
  goesOn : ∀ t d' i, d.timers[n]? = some t → d' ∈ d.timerMoves n → .dropped i ∈ d.deeds t →
    i = d'.wallNow ∧ ∃ t', d'.timers[n]? = some t' ∧ d'.SetsOut t' i
  /-- The timer is closed once its schedule has answered that there is nothing more. -/
  closed : d.isClosed n = true ↔ .answered none ∈ l
  /-- The timer cannot go on moving for ever while the clock stands still. -/
  settles : (∀ t, d.timers[n]? = some t → d.isCancelled t.token = false) →
    Acc (fun b a => b ∈ a.timerMoves n) d
  /-- If the timer has set out from an instant, the engine has run since then and the timer
  waits, it has dispatched exactly what its schedule says up to now. -/
  complete : ∀ m l₁ l₂ t r, armed.Course n l₁ m → m.Course n l₂ d → m.timers[n]? = some t →
    m.SetsOut t r → m.running = true → .stopped ∉ l₂ → d.timerMoves n = [] →
      t.schedule.Exactly r d.wallNow (dispatches l₂)

/-- **The activations of a timer are those of its schedule, none lost and none twice.**  This
holds for every schedule that advances, whenever the timer is armed and whatever happens
around it, on a wall that keeps pace with the clock. -/
theorem faithful_of_course
    {e d : Executor}
    {s : Schedule}
    {j : JobId}
    {l : List Deed}
    (advances : s.Advances)
    (course : (e.arm s j true).1.Course e.timers.length l d)
    (pace : InPace d.wall d.now) :
    Faithful j e.timers.length (e.arm s j true).1 l d := by
  obtain ⟨t, ht, kept⟩ := kept_of_course advances course
  have hpunctual := kept.punctual pace
  refine ⟨kept.increasing, ?_, ?_, ?_, ?_, ?_, ?_, ?_⟩
  · rintro u d' hu hd'
    obtain rfl := Option.some.inj (ht.symm.trans hu)
    obtain ⟨t', hdriven⟩ := driven_of_entry ht hd'
    rw [hdriven.runs, dispatches_deeds, launches, kept.job]
    cases t.phase <;> rfl
  · rintro u i hu hi
    obtain rfl := Option.some.inj (ht.symm.trans hu)
    have hphase := phase_of_dispatched (mem_dispatches_iff.2 hi)
    refine ⟨kept.counted i hphase ▸ hpunctual.previous, kept.foundRunning ?_⟩
    rw [hphase, Phase.foundRunning]
  · rintro u paused hu hphase hrunning
    obtain rfl := Option.some.inj (ht.symm.trans hu)
    cases paused with
    | true => exact .held hphase
    | false =>
        have hfound := kept.foundRunning (by rw [hphase, Phase.foundRunning])
        simp [hrunning] at hfound
  · rintro u d' i hu hd' hi
    obtain rfl := Option.some.inj (ht.symm.trans hu)
    obtain ⟨t', hdriven⟩ := driven_of_entry ht hd'
    obtain ⟨hpresent, hphase, hprevious⟩ := hdriven.drive.previous_of_dropped hpunctual hi
    refine ⟨hpresent.trans hdriven.timeless.wallNow.symm, t', hdriven.entry ht, ?_⟩
    exact hprevious ▸ .again hphase
  · rw [isClosed, ht, Option.all_some, kept.closed]
  · intro unclosed
    exact settles_of_kept kept ht (unclosed t ht) pace
  · rintro m l₁ l₂ u r hm hcourse hu setsOut running unstopped still
    obtain ⟨u', hu', keptAtM⟩ := kept_of_course advances hm
    obtain rfl := Option.some.inj (hu.symm.trans hu')
    obtain ⟨t', ht', kept', running', stands⟩ :=
      stands_of_course keptAtM hu hcourse setsOut running unstopped pace
    exact stands.exactly kept' ht' running' pace still

/-- The instant so many milliseconds after the beginning of 1970. -/
def atMilli (m : Nat) : Instant :=
  (Instant.ofNanos? (m * nanosPerMilli)).getD .epoch

/-- An executor whose wall begins with 1970 and keeps pace. -/
def clockwork : Executor where
  wall := atMilli

theorem inPace_clockwork : InPace clockwork.wall 1000 := by
  have hnanos : ∀ k ≤ 1000, (atMilli k).nanos = k * nanosPerMilli := by
    intro k hk
    have hfirst : firstNano ≤ 0 := by decide
    have hlast : 1000 * (nanosPerMilli : Int) ≤ lastNano := by decide
    have hin : firstNano ≤ k * nanosPerMilli ∧ (k * nanosPerMilli : Int) ≤ lastNano := by
      simp only [nanosPerMilli] at hlast ⊢
      omega
    rw [atMilli, Instant.ofNanos?, dif_pos hin, Option.getD_some]
  intro m hm
  show (atMilli m).nanos = (atMilli 0).nanos + _
  rw [hnanos m hm, hnanos 0 (by omega), Nat.cast_zero, Int.zero_mul, Int.zero_add]

/-- The answer is half a second after the instant that was asked about. -/
def halfSecondLater : List (Question × Instant) → Except Crash (Option Instant)
  | (_, i) :: _ => .ok (i.shift? (500 * nanosPerMilli))
  | [] => .ok none

theorem advances_halfSecondLater : (Schedule.foreign [] halfSecondLater).Advances := by
  refine Schedule.advances_foreign [] ?_
  intro asked p i h
  have hshift : p.shift? (500 * nanosPerMilli) = some i := by
    simpa [halfSecondLater] using h
  rw [Instant.lt_iff, Instant.shift?_eq_some.1 hshift]
  simp only [nanosPerMilli]
  omega

/-- A timer for every half second is armed on a stopped engine, and held for half a second. -/
def heldForHalf : List Deed × Executor :=
  told 0 [.move, .move, .wait 500, .start] (clockwork.arm (.foreign [] halfSecondLater) 0 true).1

/-- Then it waits for an activation, dispatches it and waits for the next one. -/
def ranForHalf : List Deed × Executor :=
  told 0 [.move, .move, .wait 1000, .move, .move, .move, .move, .move, .move] heldForHalf.2

theorem faithful_of_course_halfSeconds :
    InPace ranForHalf.2.wall ranForHalf.2.now ∧
      ranForHalf.1 = [.resumed (atMilli 500), .answered (some (atMilli 1000)),
        .dispatched (atMilli 1000), .answered (some (atMilli 1500))] ∧
      ∃ t, heldForHalf.2.timers[0]? = some t ∧
        t.schedule.Exactly (atMilli 500) (atMilli 1000) [atMilli 1000] := by
  have hheld : (clockwork.arm (.foreign [] halfSecondLater) 0 true).1.Course
      clockwork.timers.length heldForHalf.1 heldForHalf.2 := course_told _ _ _
  have hran : heldForHalf.2.Course clockwork.timers.length ranForHalf.1 ranForHalf.2 :=
    course_told _ _ _
  have hpace : InPace ranForHalf.2.wall ranForHalf.2.now := by
    have hnow : ranForHalf.2.now = 1000 := by decide +kernel
    rw [hnow, (hheld.append hran).wall]
    exact inPace_clockwork
  have hdeeds : ranForHalf.1 = [.resumed (atMilli 500), .answered (some (atMilli 1000)),
      .dispatched (atMilli 1000), .answered (some (atMilli 1500))] := by
    decide +kernel
  refine ⟨hpace, hdeeds, ?_⟩
  have hphase : (heldForHalf.2.timers[0]?).map Timer.phase = some (.waiting true) := by
    decide +kernel
  obtain ⟨t, ht, hphase⟩ := Option.map_eq_some_iff.1 hphase
  have hfaithful := faithful_of_course advances_halfSecondLater (hheld.append hran) hpace
  have hexactly := hfaithful.complete _ _ _ t _ hheld hran ht (.held hphase) (by decide +kernel)
    (by simp [hdeeds]) (List.isEmpty_iff.1 (by decide +kernel))
  have hfrom : heldForHalf.2.wallNow = atMilli 500 := by decide +kernel
  have hupTo : ranForHalf.2.wallNow = atMilli 1000 := by decide +kernel
  rw [hdeeds, hfrom, hupTo] at hexactly
  exact ⟨t, ht, hexactly⟩

end Executor
end Timetable
