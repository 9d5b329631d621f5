import Timetable.Proofs.Executor.Timeless

/-!
# How a timer is driven

A move of a timer changes its own entry in the table, and only one of them starts
a run.  Here this is said once, with what the move read: whether the engine runs,
what the clock and the wall show, whether the token is cancelled, and what the
schedule answers.  Whatever is proved about timers is proved from this list.

Main results:

* a move of a timer drives it (driven_of_mem_timerMoves);
* the moves of all tasks take no time (timeless_of_mem_moves).
-/

namespace Timetable
namespace Executor

/-- What a move makes of a timer. -/
inductive Drive
    (e : Executor)
    (t : Timer) :
    Timer → Prop
  | begin
      (phase : t.phase = .fresh) :
      Drive e t { t with previous := e.wallNow, phase := .resting }
  | look
      (phase : t.phase = .resting) :
      Drive e t { t with phase := .waiting (!e.running) }
  | close
      (phase : (∃ paused, t.phase = .waiting paused) ∨ ∃ i due, t.phase = .armed i due)
      (cancelled : e.isCancelled t.token = true) :
      Drive e t { t with closed := true, phase := .finished }
  | resume
      {paused : Bool}
      (phase : t.phase = .waiting paused)
      (running : e.running = true)
      (unclosed : e.isCancelled t.token = false) :
      Drive e t { t with
        previous := if paused then t.previous.latest e.wallNow else t.previous
        phase := .asking }
  | crash
      {x : Crash}
      (phase : t.phase = .asking)
      (answer : (t.schedule.next t.previous).answer = .error x) :
      Drive e t { t with
        schedule := (t.schedule.next t.previous).schedule
        phase := .finished }
  | exhaust
      (phase : t.phase = .asking)
      (answer : (t.schedule.next t.previous).answer = .ok none) :
      Drive e t { t with
        schedule := (t.schedule.next t.previous).schedule
        closed := true
        phase := .finished }
  | arm
      {i : Instant}
      (phase : t.phase = .asking)
      (answer : (t.schedule.next t.previous).answer = .ok (some i)) :
      Drive e t { t with
        schedule := (t.schedule.next t.previous).schedule
        phase := .armed i (e.nanos + delay e.wallNow i) }
  | wake
      {i : Instant}
      {due : Nat}
      (phase : t.phase = .armed i due)
      (isDue : due ≤ e.nanos) :
      Drive e t { t with phase := .woken i }
  | count
      {i : Instant}
      (phase : t.phase = .woken i)
      (running : e.running = true) :
      Drive e t { t with previous := i, phase := .counted i }
  | drop
      {i : Instant}
      (phase : t.phase = .woken i)
      (stopped : e.running = false) :
      Drive e t { t with previous := i.latest e.wallNow, phase := .resting }
  | activate
      {i : Instant}
      (phase : t.phase = .counted i) :
      Drive e t { t with phase := .resting }

theorem Drive.token
    {e : Executor}
    {t t' : Timer}
    (h : e.Drive t t') :
    t'.token = t.token := by
  cases h <;> rfl

theorem Drive.job
    {e : Executor}
    {t t' : Timer}
    (h : e.Drive t t') :
    t'.job = t.job := by
  cases h <;> rfl

/-- The run that a timer starts for an activation of a job: it begins now, with the job's own
context, and is counted as an activation. -/
def activation
    (e : Executor)
    (j : JobId) :
    Run where
  job := j
  control := .entering (e.jobContext j)
  counted := some e.dispatched
  started := e.now

/-- The runs that the next move of a timer starts. -/
def launches
    (e : Executor)
    (t : Timer) :
    List Run :=
  match t.phase with
  | .counted _ => [e.activation t.job]
  | _ => []

/-- A timer is driven by one move. -/
structure Driven
    (e e' : Executor)
    (n : Nat)
    (t t' : Timer) : Prop where
  drive : e.Drive t t'
  timers : e'.timers = e.timers.set n t'
  timeless : e.Timeless e'
  running : e'.running = e.running
  jobs : e'.jobs = e.jobs
  runs : e'.runs = e.runs ++ e.launches t

/-- A move that sets the entry of a timer, after a change that concerns no timer, run or
engine. -/
theorem driven_setTimer
    {e e₁ : Executor}
    {n : Nat}
    {t t' : Timer}
    (quiet : e.Quiet e₁)
    (timeless : e.Timeless e₁)
    (jobs : e₁.jobs = e.jobs)
    (hlaunches : e.launches t = [])
    (drive : e.Drive t t') :
    e.Driven (e₁.setTimer n t') n t t' := by
  refine ⟨drive, ?_, timeless.trans ⟨rfl, rfl, rfl, rfl⟩, quiet.running, jobs, ?_⟩
  · show e₁.timers.set n t' = _
    rw [quiet.timers]
  · rw [hlaunches, List.append_nil]
    exact quiet.runs

theorem driven_askTimer
    {e : Executor}
    {n : Nat}
    {t : Timer}
    (phase : t.phase = .asking) :
    ∃ t', e.Driven (e.askTimer n t) n t t' := by
  have hlaunches : e.launches t = [] := by
    rw [launches, phase]
  cases hanswer : (t.schedule.next t.previous).answer with
  | error x =>
      simp only [askTimer, hanswer]
      exact ⟨_, driven_setTimer (e.quiet_noteAll _) ⟨rfl, rfl, rfl, rfl⟩ rfl hlaunches
        (.crash phase hanswer)⟩
  | ok answer =>
      cases answer with
      | none =>
          simp only [askTimer, hanswer]
          exact ⟨_, driven_setTimer ((e.quiet_noteAll _).trans (quiet_note _ _))
            ⟨rfl, rfl, rfl, rfl⟩ rfl hlaunches (.exhaust phase hanswer)⟩
      | some i =>
          simp only [askTimer, hanswer]
          exact ⟨_, driven_setTimer (e.quiet_noteAll _) ⟨rfl, rfl, rfl, rfl⟩ rfl hlaunches
            (.arm phase hanswer)⟩

theorem driven_checkTimer
    {e : Executor}
    {n : Nat}
    {t : Timer}
    {i : Instant}
    (phase : t.phase = .woken i) :
    ∃ t', e.Driven (e.checkTimer n t i) n t t' := by
  have hlaunches : e.launches t = [] := by
    rw [launches, phase]
  unfold checkTimer
  cases hrunning : e.running with
  | true =>
      obtain ⟨journal, henter⟩ := e.enter_eq e.dispatched
      rw [if_pos rfl, henter]
      refine ⟨_, .count phase hrunning, rfl, ⟨rfl, rfl, rfl, rfl⟩, rfl, rfl, ?_⟩
      rw [hlaunches, List.append_nil]
      rfl
  | false =>
      rw [if_neg (by simp)]
      exact ⟨_, driven_setTimer (.refl e) (.refl e) rfl hlaunches (.drop phase hrunning)⟩

theorem driven_activate
    {e : Executor}
    {n : Nat}
    {t : Timer}
    {i : Instant}
    (phase : t.phase = .counted i) :
    e.Driven (e.activate n t) n t { t with phase := .resting } := by
  refine ⟨.activate phase, rfl, ⟨rfl, rfl, rfl, rfl⟩, rfl, rfl, ?_⟩
  rw [launches, phase]
  rfl

/-- **A move of a timer drives it.** -/
theorem driven_of_mem_timerMoves
    {e e' : Executor}
    {n : Nat}
    (h : e' ∈ e.timerMoves n) :
    ∃ t t', e.timers[n]? = some t ∧ e.Driven e' n t t' := by
  unfold timerMoves at h
  cases ht : e.timers[n]? with
  | none => simp [ht] at h
  | some t =>
      simp only [ht] at h
      refine ⟨t, ?_⟩
      suffices hdriven : ∃ t', e.Driven e' n t t' by
        obtain ⟨t', hdriven⟩ := hdriven
        exact ⟨t', rfl, hdriven⟩
      -- Every move but that of a counted activation starts no run.
      have hset : ∀ t', (∀ i, t.phase ≠ .counted i) → e.Drive t t' →
          ∃ t'', e.Driven (e.setTimer n t') n t t'' := by
        intro t' hphase hdrive
        refine ⟨t', driven_setTimer (.refl e) (.refl e) rfl ?_ hdrive⟩
        unfold launches
        split
        · rename_i i hcounted
          exact absurd hcounted (hphase i)
        · rfl
      cases hphase : t.phase with
      | idle | finished => simp [hphase] at h
      | fresh =>
          simp only [hphase, List.mem_singleton] at h
          subst h
          exact hset _ (by simp [hphase]) (.begin hphase)
      | resting =>
          simp only [hphase, List.mem_singleton] at h
          subst h
          exact hset _ (by simp [hphase]) (.look hphase)
      | waiting paused =>
          simp only [hphase] at h
          split at h
          · rename_i hcancelled
            obtain rfl := List.mem_singleton.1 h
            exact hset _ (by simp [hphase]) (.close (.inl ⟨paused, hphase⟩) hcancelled)
          · rename_i hopen
            obtain ⟨hrunning, rfl⟩ := mem_guarded_iff.1 h
            exact hset _ (by simp [hphase]) (.resume hphase hrunning (by simpa using hopen))
      | asking =>
          simp only [hphase, List.mem_singleton] at h
          subst h
          exact driven_askTimer hphase
      | armed i due =>
          simp only [hphase, armedMoves, List.mem_append] at h
          rcases h with h | h
          · obtain ⟨hcancelled, rfl⟩ := mem_guarded_iff.1 h
            exact hset _ (by simp [hphase]) (.close (.inr ⟨i, due, hphase⟩) hcancelled)
          · obtain ⟨hdue, rfl⟩ := mem_guarded_iff.1 h
            exact hset _ (by simp [hphase]) (.wake hphase hdue)
      | woken i =>
          simp only [hphase, List.mem_singleton] at h
          subst h
          exact driven_checkTimer hphase
      | counted i =>
          simp only [hphase, List.mem_singleton] at h
          subst h
          exact ⟨_, driven_activate hphase⟩

/-- A move drives the timer that stands at its place. -/
theorem driven_of_entry
    {e e' : Executor}
    {n : Nat}
    {t : Timer}
    (ht : e.timers[n]? = some t)
    (h : e' ∈ e.timerMoves n) :
    ∃ t', e.Driven e' n t t' := by
  obtain ⟨u, t', hu, hdriven⟩ := driven_of_mem_timerMoves h
  obtain rfl := Option.some.inj (hu.symm.trans ht)
  exact ⟨t', hdriven⟩

/-- **No move of a task takes time.** -/
theorem timeless_of_mem_moves
    {e e' : Executor}
    {m : Mover}
    (h : e' ∈ e.moves m) :
    e.Timeless e' := by
  cases m with
  | run r => exact timeless_of_mem_runMoves h
  | timer n =>
      obtain ⟨t, t', -, hdriven⟩ := driven_of_mem_timerMoves h
      exact hdriven.timeless
  | waiter n => exact timeless_of_mem_waiterMoves h

end Executor
end Timetable
