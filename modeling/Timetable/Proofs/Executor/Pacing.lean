import Timetable.Proofs.Executor.Course
import Timetable.Proofs.Schedule.Feeding

/-!
# What a timer keeps to on its course

A timer with a schedule that advances goes forwards: whatever it is past, an
activation or an instant from which it went on, lies before all that it activates
later.  If the wall keeps pace with the clock an armed timer wakes exactly when
its activation is there, so it is never past the present.

Main results:

* one move keeps a timer past what it is past (Drive.past);
* one move keeps a timer in time (Drive.punctual);
* all this holds along the course of a timer from the moment at which it is armed
  (kept_of_course).
-/

namespace Timetable

namespace Instant

theorem le_latest_left (a b : Instant) : a ≤ a.latest b := by
  unfold latest
  split
  · assumption
  · exact Int.le_refl _

theorem latest_eq_right
    {a b : Instant}
    (h : a ≤ b) :
    a.latest b = b :=
  if_pos h

end Instant

/-- A timer that stands so has found the engine running, and has let nobody move since. -/
def Phase.foundRunning : Phase → Bool
  | .waiting false => true
  | .asking => true
  | .counted _ => true
  | _ => false

theorem Phase.yields_of_foundRunning
    {phase : Phase}
    (h : phase.foundRunning = true) :
    phase.yields = false := by
  cases phase with
  | waiting paused => cases paused <;> simp_all [Phase.foundRunning, Phase.yields]
  | asking | counted => rfl
  | idle | fresh | resting | armed | woken | finished => simp [Phase.foundRunning] at h

/-- The activation that a timer has before it. -/
def Timer.ahead? (t : Timer) : Option Instant :=
  match t.phase with
  | .armed i _ => some i
  | .woken i => some i
  | .counted i => some i
  | _ => none

/-- The timer is past an instant: whatever it activates from now on comes later. -/
structure Timer.Past
    (t : Timer)
    (x : Instant) :
    Prop where
  begun : t.phase ≠ .fresh
  previous : x ≤ t.previous
  ahead : ∀ i, t.ahead? = some i → x < i

/-- The wall keeps pace with the clock up to a moment. -/
def InPace
    (wall : Nat → Instant)
    (upTo : Nat) :
    Prop :=
  ∀ m ≤ upTo, (wall m).nanos = (wall 0).nanos + m * nanosPerMilli

theorem InPace.le
    {wall : Nat → Instant}
    {a b m : Nat}
    (h : InPace wall m)
    (hab : a ≤ b)
    (hb : b ≤ m) :
    wall a ≤ wall b := by
  rw [Instant.le_iff, h a (hab.trans hb), h b hb]
  have := Nat.mul_le_mul_right nanosPerMilli hab
  omega

namespace Executor

theorem Aside.later
    {e e' : Executor}
    {n : Nat}
    (h : e.Aside e' n) :
    e.now ≤ e'.now := by
  rcases h.clock with hnow | ⟨hnow, -⟩
  · exact hnow.ge
  · exact hnow

theorem Aside.inPace
    {e e' : Executor}
    {n : Nat}
    (h : e.Aside e' n)
    (pace : InPace e'.wall e'.now) :
    InPace e.wall e.now := by
  rw [← h.wall]
  exact fun m hm => pace m (hm.trans h.later)

theorem Timeless.inPace_iff
    {e e' : Executor}
    (h : e.Timeless e') :
    InPace e'.wall e'.now ↔ InPace e.wall e.now := by
  rw [h.wall, h.now]

/-- The timer is not past the present, and wakes when its activation is there. -/
structure Punctual
    (e : Executor)
    (t : Timer) :
    Prop where
  previous : t.previous ≤ e.wallNow
  armed : ∀ i due, t.phase = .armed i due →
    (e.wall 0).nanos + due = i.nanos ∨ due ≤ e.nanos ∧ i ≤ e.wallNow
  woken : ∀ i, t.phase = .woken i → i ≤ e.wallNow

theorem dispatches_deeds
    (e : Executor)
    (t : Timer) :
    dispatches (e.deeds t) =
      match t.phase with
      | .counted i => [i]
      | _ => [] := by
  unfold deeds
  cases t.phase with
  | waiting paused => cases paused <;> rfl
  | asking =>
      dsimp only
      split <;> rfl
  | woken i =>
      dsimp only
      split <;> rfl
  | idle | fresh | resting | armed | counted | finished => rfl

/-- A dispatched activation has been counted. -/
theorem phase_of_dispatched
    {e : Executor}
    {t : Timer}
    {i : Instant}
    (h : i ∈ dispatches (e.deeds t)) :
    t.phase = .counted i := by
  rw [dispatches_deeds] at h
  split at h
  · rename_i k hphase
    rw [hphase, List.mem_singleton.1 h]
  · simp at h

theorem dispatches_stops (e e' : Executor) : dispatches (e.stops e') = [] := by
  unfold stops
  split <;> rfl

namespace Drive

variable {e : Executor} {t t' : Timer}

theorem advances
    (h : e.Drive t t')
    (advances : t.schedule.Advances) :
    t'.schedule.Advances := by
  cases h with
  | crash | exhaust | arm => exact advances.next _
  | begin | look | close | resume | wake | count | drop | activate => exact advances

/-- **One move keeps a timer past what it is past.** -/
theorem past
    {x : Instant}
    (h : e.Drive t t')
    (advances : t.schedule.Advances)
    (past : t.Past x) :
    t'.Past x := by
  obtain ⟨begun, previous, ahead⟩ := past
  cases h with
  | begin phase => exact absurd phase begun
  | look phase => exact ⟨by simp, previous, by simp [Timer.ahead?]⟩
  | close _ cancelled => exact ⟨by simp, previous, by simp [Timer.ahead?]⟩
  | resume phase running =>
      refine ⟨by simp, ?_, by simp [Timer.ahead?]⟩
      dsimp only
      split
      · exact Int.le_trans previous (Instant.le_latest_left _ _)
      · exact previous
  | crash phase answer => exact ⟨by simp, previous, by simp [Timer.ahead?]⟩
  | exhaust phase answer => exact ⟨by simp, previous, by simp [Timer.ahead?]⟩
  | arm phase answer =>
      refine ⟨by simp, previous, ?_⟩
      rintro i hi
      cases hi
      exact Int.lt_of_le_of_lt previous (advances.lt answer)
  | wake phase isDue => exact ⟨by simp, previous, by simpa [Timer.ahead?, phase] using ahead⟩
  | @count i phase running =>
      have hlt : x < i := ahead i (by simp [Timer.ahead?, phase])
      refine ⟨by simp, Int.le_of_lt hlt, ?_⟩
      rintro k hk
      cases hk
      exact hlt
  | @drop i phase stopped =>
      have hlt : x < i := ahead i (by simp [Timer.ahead?, phase])
      exact ⟨by simp, Int.le_trans (Int.le_of_lt hlt) (Instant.le_latest_left _ _), by
        simp [Timer.ahead?]⟩
  | activate phase => exact ⟨by simp, previous, by simp [Timer.ahead?]⟩

/-- A timer that has counted an activation goes on from it. -/
theorem counted
    {i : Instant}
    (h : e.Drive t t')
    (phase : t'.phase = .counted i) :
    t'.previous = i := by
  cases h with
  | count =>
      cases phase
      rfl
  | begin | look | close | resume | crash | exhaust | arm | wake | drop | activate => cases phase

/-- A timer finds the engine running only if it runs. -/
theorem foundRunning
    (h : e.Drive t t')
    (found : t'.phase.foundRunning = true) :
    e.running = true := by
  cases h with
  | look phase =>
      cases hrunning : e.running with
      | true => rfl
      | false => simp [hrunning, Phase.foundRunning] at found
  | resume _ running | count _ running => exact running
  | begin | close | crash | exhaust | arm | wake | drop | activate =>
      simp [Phase.foundRunning] at found

/-- A timer that nobody closes is closed as its schedule answers that there is nothing more. -/
theorem closed
    (h : e.Drive t t')
    (unclosed : e.isCancelled t.token = false) :
    t'.closed = true ↔ t.closed = true ∨ .answered none ∈ e.deeds t := by
  cases h with
  | close _ cancelled => simp [cancelled] at unclosed
  | @resume paused phase running => cases paused <;> simp [deeds, phase]
  | drop phase stopped => simp [deeds, phase, stopped]
  | count phase running => simp [deeds, phase, running]
  | begin phase | look phase | wake phase | activate phase => simp [deeds, phase]
  | crash phase answer | exhaust phase answer | arm phase answer => simp [deeds, phase, answer]

/-- A timer that drops an activation goes on from the present. -/
theorem previous_of_dropped
    {i : Instant}
    (h : e.Drive t t')
    (punctual : e.Punctual t)
    (dropped : .dropped i ∈ e.deeds t) :
    i = e.wallNow ∧ t'.phase = .resting ∧ t'.previous = i := by
  cases h with
  | @drop k phase stopped =>
      obtain rfl : i = e.wallNow := by simpa [deeds, phase, stopped] using dropped
      exact ⟨rfl, rfl, Instant.latest_eq_right (punctual.woken k phase)⟩
  | close phase cancelled =>
      rcases phase with ⟨paused, phase⟩ | ⟨k, due, phase⟩
      · cases paused <;> simp [deeds, phase] at dropped
      · simp [deeds, phase] at dropped
  | @resume paused phase running =>
      cases paused <;> simp [deeds, phase] at dropped
  | count phase running => simp [deeds, phase, running] at dropped
  | begin phase | look phase | wake phase | activate phase => simp [deeds, phase] at dropped
  | crash phase answer | exhaust phase answer | arm phase answer =>
      simp [deeds, phase, answer] at dropped

/-- **One move keeps a timer in time.** -/
theorem punctual
    (h : e.Drive t t')
    (pace : InPace e.wall e.now)
    (punctual : e.Punctual t) :
    e.Punctual t' := by
  have hnow : (e.wallNow).nanos = (e.wall 0).nanos + e.nanos := by
    simpa [wallNow, nanos] using pace e.now (Nat.le_refl _)
  cases h with
  | begin phase => exact ⟨Int.le_refl _, by simp, by simp⟩
  | look phase => exact ⟨punctual.previous, by simp, by simp⟩
  | close _ cancelled => exact ⟨punctual.previous, by simp, by simp⟩
  | resume phase running =>
      refine ⟨?_, by simp, by simp⟩
      dsimp only
      split
      · exact Int.le_of_eq (congrArg Instant.nanos (Instant.latest_eq_right punctual.previous))
      · exact punctual.previous
  | crash phase answer => exact ⟨punctual.previous, by simp, by simp⟩
  | exhaust phase answer => exact ⟨punctual.previous, by simp, by simp⟩
  | @arm i phase answer =>
      refine ⟨punctual.previous, ?_, by simp⟩
      rintro k due hk
      cases hk
      by_cases hlate : i ≤ e.wallNow
      · rw [Instant.le_iff] at hlate
        refine Or.inr ⟨?_, hlate⟩
        unfold delay
        omega
      · rw [Instant.le_iff] at hlate
        refine Or.inl ?_
        unfold delay
        omega
  | @wake i due phase isDue =>
      refine ⟨punctual.previous, by simp, ?_⟩
      rintro k hk
      cases hk
      rcases punctual.armed i due phase with hdue | ⟨-, hi⟩
      · rw [Instant.le_iff]
        omega
      · exact hi
  | @count i phase running => exact ⟨punctual.woken i phase, by simp, by simp⟩
  | @drop i phase stopped =>
      refine ⟨?_, by simp, by simp⟩
      exact Int.le_of_eq (congrArg Instant.nanos
        (Instant.latest_eq_right (punctual.woken i phase)))
  | activate phase => exact ⟨punctual.previous, by simp, by simp⟩

end Drive

/-- Time that passes keeps a timer in time. -/
theorem Punctual.later
    {e e' : Executor}
    {t : Timer}
    (h : e.Punctual t)
    (pace : InPace e'.wall e'.now)
    (wall : e'.wall = e.wall)
    (later : e.now ≤ e'.now) :
    e'.Punctual t := by
  have hwall : e.wallNow ≤ e'.wallNow := by
    unfold wallNow
    rw [← wall]
    exact pace.le later (Nat.le_refl _)
  have hnanos : e.nanos ≤ e'.nanos := Nat.mul_le_mul_right _ later
  refine ⟨Int.le_trans h.previous hwall, ?_, ?_⟩
  · intro i due hi
    rcases h.armed i due hi with hdue | ⟨hdue, hlate⟩
    · exact Or.inl (wall ▸ hdue)
    · exact Or.inr ⟨hdue.trans hnanos, Int.le_trans hlate hwall⟩
  · intro i hi
    exact Int.le_trans (h.woken i hi) hwall

/-- What a timer with a job keeps to, with some deeds behind it. -/
structure Kept
    (j : JobId)
    (l : List Deed)
    (e : Executor)
    (t : Timer) :
    Prop where
  job : t.job = j
  advances : t.schedule.Advances
  increasing : (dispatches l).Pairwise (· < ·)
  past : ∀ i ∈ dispatches l, t.Past i
  counted : ∀ i, t.phase = .counted i → t.previous = i
  foundRunning : t.phase.foundRunning = true → e.running = true
  closed : t.closed = true ↔ .answered none ∈ l
  punctual : InPace e.wall e.now → e.Punctual t

theorem Kept.drive
    {j : JobId}
    {l : List Deed}
    {e e' : Executor}
    {n : Nat}
    {t t' : Timer}
    (h : Kept j l e t)
    (unclosed : e.isCancelled t.token = false)
    (hdriven : e.Driven e' n t t') :
    Kept j (l ++ e.deeds t) e' t' := by
  have hdrive := hdriven.drive
  refine ⟨hdrive.job.trans h.job, hdrive.advances h.advances, ?_, ?_,
    fun _ => hdrive.counted, ?_, ?_, ?_⟩
  · rw [dispatches_append, List.pairwise_append]
    refine ⟨h.increasing, ?_, ?_⟩
    · rw [dispatches_deeds]
      split <;> simp
    · intro x hx i hi
      refine (h.past x hx).ahead i ?_
      rw [Timer.ahead?, phase_of_dispatched hi]
  · intro i hi
    rw [dispatches_append, List.mem_append] at hi
    rcases hi with hi | hi
    · exact hdrive.past h.advances (h.past i hi)
    · have hphase := phase_of_dispatched hi
      have hprevious := h.counted i hphase
      cases hdrive with
      | activate phase => exact ⟨by simp, hprevious ▸ Int.le_refl _, by simp [Timer.ahead?]⟩
      | close _ cancelled => simp [cancelled] at unclosed
      | begin phase | look phase | resume phase | crash phase | exhaust phase | arm phase
      | wake phase | count phase | drop phase =>
          rw [hphase] at phase
          cases phase
  · intro hfound
    rw [hdriven.running]
    exact hdrive.foundRunning hfound
  · rw [hdrive.closed unclosed, h.closed, List.mem_append]
  · intro pace
    have pace' := hdriven.timeless.inPace_iff.1 pace
    exact (hdrive.punctual pace' (h.punctual pace')).later pace hdriven.timeless.wall
      hdriven.timeless.now.ge

theorem Kept.aside
    {j : JobId}
    {l : List Deed}
    {e e' : Executor}
    {n : Nat}
    {t : Timer}
    (h : Kept j l e t)
    (ht : e.timers[n]? = some t)
    (haside : e.Aside e' n) :
    Kept j (l ++ e.stops e') e' t := by
  refine ⟨h.job, h.advances, ?_, ?_, h.counted, ?_, ?_, ?_⟩
  · rw [dispatches_append, dispatches_stops, List.append_nil]
    exact h.increasing
  · rw [dispatches_append, dispatches_stops, List.append_nil]
    exact h.past
  · intro hfound
    rcases haside.engine with hrunning | hyields
    · rw [hrunning]
      exact h.foundRunning hfound
    · simp [yields, ht, Phase.yields_of_foundRunning hfound] at hyields
  · have hstops : Deed.answered none ∉ e.stops e' := by
      unfold stops
      split <;> simp
    rw [h.closed, List.mem_append, or_iff_left hstops]
  · intro pace
    exact (h.punctual (haside.inPace pace)).later pace haside.wall haside.later

/-- **A timer keeps to all this on its course from the moment at which it is armed.** -/
theorem kept_of_course
    {e d : Executor}
    {s : Schedule}
    {j : JobId}
    {l : List Deed}
    (advances : s.Advances)
    (course : (e.arm s j true).1.Course e.timers.length l d) :
    ∃ t, d.timers[e.timers.length]? = some t ∧ Kept j l d t := by
  refine course.invariant (List.getElem?_concat_length ..) ?_
    (fun h _ => h.drive) (fun h => h.aside)
  exact ⟨rfl, advances, .nil, by simp [dispatches], by simp, by simp [Phase.foundRunning],
    by simp, fun _ => ⟨Int.le_refl _, by simp, by simp⟩⟩

end Executor
end Timetable
