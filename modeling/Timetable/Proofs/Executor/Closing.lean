import Timetable.Proofs.Executor.Pacing

/-!
# Closing a timer

Closing a timer cancels its token.  A timer heeds its token in two places: before it
asks its schedule, and while it sleeps.  It does not when an activation is due at the
same time, nor when it has woken.  Here tasks move at once, on many threads: between
any two moves of a timer anything may happen beside it.

Main results:

* a timer whose token is cancelled dispatches no activation but a pending one
  (sublist_of_trail);
* not even that, if it was calm and the clock goes on only while it cannot move
  (eq_nil_of_patient);
* what it dispatches are the runs that the engine starts for its job
  (starts_of_trail);
* whatever happens to the executor of a registry leads along a trail
  (trail_of_acts), and the tokens of all timers are known there (Known.acts).
-/

namespace Timetable

namespace Tokens

/-- Later tokens: none is forgotten, and what was cancelled still is. -/
structure Later (ts ts' : Tokens) : Prop where
  length : ts.table.length ≤ ts'.table.length
  cancelled : ∀ t, ts.isCancelled t = true → ts'.isCancelled t = true

theorem Later.refl (ts : Tokens) : ts.Later ts :=
  ⟨Nat.le_refl _, fun _ => id⟩

theorem later_cancel
    (ts : Tokens)
    (t : TokenId) :
    ts.Later (ts.cancel t) :=
  ⟨(ts.length_cancel t).ge, fun _ => isCancelled_cancel_of t⟩

theorem later_fresh (ts : Tokens) : ts.Later ts.fresh.1 := by
  refine ⟨?_, ?_⟩
  · show ts.table.length ≤ (ts.table ++ [_]).length
    rw [List.length_append]
    omega
  · intro t h
    unfold isCancelled at h ⊢
    obtain ⟨s, hs, hcancelled⟩ := (Option.any_eq_true ..).1 h
    have hlt : t < ts.table.length := (List.getElem?_eq_some_iff.1 hs).1
    show ((ts.table ++ [_])[t]?).any _ = true
    rw [List.getElem?_append_left hlt, hs]
    exact hcancelled

/-- A token that has been made can be cancelled. -/
theorem isCancelled_cancel_self
    {ts : Tokens}
    {t : TokenId}
    (known : t < ts.table.length) :
    (ts.cancel t).isCancelled t = true := by
  rw [isCancelled_cancel, List.getElem?_eq_getElem known]
  simp

end Tokens

/-- The activation that a timer may dispatch without heeding its token: the one that it is
about to ask for, or the one that it has before it. -/
def Timer.pending? (t : Timer) : Option Instant :=
  match t.phase with
  | .asking => (t.schedule.next t.previous).answer.toOption.join
  | _ => t.ahead?

namespace Executor

/-- How many runs the engine has started for a job. -/
def starts
    (e : Executor)
    (j : JobId) :
    Nat :=
  e.runs.countP fun run => run.job == j && run.counted == some e.dispatched

/-- Something happens beside a timer: at most the timer is marked as closed or open, and what
is cancelled stays so. -/
structure Beside
    (n : Nat)
    (e e' : Executor) :
    Prop where
  timer : ∀ t, e.timers[n]? = some t →
    ∃ closed, e'.timers[n]? = some { t with closed := closed }
  cancelled : ∀ u, e.isCancelled u = true → e'.isCancelled u = true

/-- Something happens beside a timer on the same thread: the clock goes on only while the timer
cannot move. -/
structure Patient
    (n : Nat)
    (e e' : Executor) :
    Prop where
  beside : e.Beside n e'
  clock : e'.now = e.now ∨ e.timerMoves n = []

/-- Something happens beside a timer, and the engine starts no run for the timer's job. -/
structure Silent
    (n : Nat)
    (e e' : Executor) :
    Prop where
  beside : e.Beside n e'
  starts : ∀ t, e.timers[n]? = some t → e'.starts t.job = e.starts t.job

/-- The moves of a timer, with whatever may happen beside it in between, and the activations
that it dispatches meanwhile. -/
inductive Trail
    (beside : Executor → Executor → Prop)
    (n : Nat)
    (e₀ : Executor) :
    List Instant → Executor → Prop
  | start : Trail beside n e₀ [] e₀
  | own
      {l : List Instant}
      {e e' : Executor}
      {t : Timer}
      (h : Trail beside n e₀ l e)
      (entry : e.timers[n]? = some t)
      (move : e' ∈ e.timerMoves n) :
      Trail beside n e₀ (l ++ dispatches (e.deeds t)) e'
  | other
      {l : List Instant}
      {e e' : Executor}
      (h : Trail beside n e₀ l e)
      (step : beside e e') :
      Trail beside n e₀ l e'

section Cancelled

variable {n : Nat} {e d : Executor} {t : Timer} {l : List Instant}

/-- With its token cancelled, a timer dispatches what is pending or keeps it pending, and it
asks for nothing more. -/
theorem Drive.pending
    {t' : Timer}
    (h : e.Drive t t')
    (cancelled : e.isCancelled t.token = true) :
    (dispatches (e.deeds t) ++ t'.pending?.toList).Sublist t.pending?.toList := by
  rw [dispatches_deeds]
  cases h with
  | resume _ _ unclosed => simp [cancelled] at unclosed
  | close phase =>
      rcases phase with ⟨paused, phase⟩ | ⟨i, due, phase⟩ <;>
        simp [Timer.pending?, Timer.ahead?, phase]
  | arm phase answer =>
      simp [Timer.pending?, Timer.ahead?, phase, answer, Except.toOption]
  | begin phase | look phase | crash phase | exhaust phase | wake phase | count phase
  | drop phase | activate phase =>
      simp [Timer.pending?, Timer.ahead?, phase]

/-- **A timer whose token is cancelled dispatches no activation but a pending one**, whatever
happens beside it. -/
theorem sublist_of_trail
    (entry : e.timers[n]? = some t)
    (cancelled : e.isCancelled t.token = true)
    (trail : e.Trail (Beside n) n l d) :
    ∃ t', d.timers[n]? = some t' ∧ d.isCancelled t'.token = true ∧
      (l ++ t'.pending?.toList).Sublist t.pending?.toList := by
  induction trail with
  | start => exact ⟨t, entry, cancelled, .refl _⟩
  | own _ entry' move ih =>
      obtain ⟨t₁, ht₁, hcancelled, hsub⟩ := ih
      obtain rfl := Option.some.inj (entry'.symm.trans ht₁)
      obtain ⟨t₂, hdriven⟩ := driven_of_entry ht₁ move
      refine ⟨t₂, hdriven.entry ht₁, ?_, ?_⟩
      · rw [hdriven.timeless.isCancelled, hdriven.drive.token]
        exact hcancelled
      · rw [List.append_assoc]
        exact ((hdriven.drive.pending hcancelled).append_left _).trans hsub
  | other _ step ih =>
      obtain ⟨t₁, ht₁, hcancelled, hsub⟩ := ih
      obtain ⟨closed, ht₂⟩ := step.timer t₁ ht₁
      exact ⟨_, ht₂, step.cancelled _ hcancelled, hsub⟩

/-- A move of a timer starts a run for each activation that it dispatches. -/
theorem Driven.starts
    {e' : Executor}
    {t' : Timer}
    (h : e.Driven e' n t t')
    (dispatched : e'.dispatched = e.dispatched) :
    e'.starts t.job = e.starts t.job + (dispatches (e.deeds t)).length := by
  rw [dispatches_deeds]
  unfold Executor.starts
  rw [h.runs, dispatched, List.countP_append]
  unfold launches
  cases t.phase with
  | counted i => simp [activation]
  | _ => simp

/-- **What a timer dispatches are the runs that the engine starts for its job.** -/
theorem starts_of_trail
    (entry : e.timers[n]? = some t)
    (trail : e.Trail (Silent n) n l d) :
    ∃ t', d.timers[n]? = some t' ∧ t'.job = t.job ∧
      d.starts t.job = e.starts t.job + l.length := by
  induction trail with
  | start => exact ⟨t, entry, rfl, rfl⟩
  | own _ entry' move ih =>
      obtain ⟨t₁, ht₁, hjob, hstarts⟩ := ih
      obtain rfl := Option.some.inj (entry'.symm.trans ht₁)
      obtain ⟨t₂, hdriven⟩ := driven_of_entry ht₁ move
      have hmore := hdriven.starts (later_of_mem_moves (m := .timer n) move).1.dispatched
      rw [hjob, hstarts] at hmore
      refine ⟨t₂, hdriven.entry ht₁, hdriven.drive.job.trans hjob, ?_⟩
      rw [hmore, List.length_append, Nat.add_assoc]
  | other _ step ih =>
      obtain ⟨t₁, ht₁, hjob, hstarts⟩ := ih
      obtain ⟨closed, ht₂⟩ := step.beside.timer t₁ ht₁
      have hsame := step.starts t₁ ht₁
      rw [hjob] at hsame
      exact ⟨_, ht₂, hjob, hsame.trans hstarts⟩

/-- Nothing is pending, or the timer sleeps for an activation that is not due yet. -/
def Calm
    (e : Executor)
    (t : Timer) :
    Prop :=
  t.pending? = none ∨ ∃ i due, t.phase = .armed i due ∧ e.nanos < due

/-- A timer that cannot move is calm. -/
theorem calm_of_still
    (entry : e.timers[n]? = some t)
    (still : e.timerMoves n = []) :
    e.Calm t := by
  simp only [timerMoves, entry] at still
  cases hphase : t.phase with
  | armed i due =>
      simp only [hphase, armedMoves, List.append_eq_nil_iff, ite_eq_right_iff] at still
      exact Or.inr ⟨i, due, hphase, by simpa using still.2⟩
  | idle | fresh | resting | waiting | finished =>
      exact Or.inl (by simp [Timer.pending?, Timer.ahead?, hphase])
  | asking | woken | counted => simp [hphase] at still

/-- A calm timer whose token is cancelled dispatches nothing with its next move, after which
nothing is pending. -/
theorem Drive.calm
    {t' : Timer}
    (h : e.Drive t t')
    (cancelled : e.isCancelled t.token = true)
    (calm : e.Calm t) :
    dispatches (e.deeds t) = [] ∧ t'.pending? = none := by
  rcases calm with hnone | ⟨i, due, hphase, hnotYet⟩
  · have hsub := h.pending cancelled
    rw [hnone, Option.toList_none, List.sublist_nil, List.append_eq_nil_iff,
      Option.toList_eq_nil_iff] at hsub
    exact hsub
  · refine ⟨by rw [dispatches_deeds, hphase], ?_⟩
    cases h with
    | close => rfl
    | wake phase isDue =>
        rw [hphase] at phase
        cases phase
        omega
    | begin phase | look phase | resume phase | crash phase | exhaust phase | arm phase
    | count phase | drop phase | activate phase =>
        rw [hphase] at phase
        cases phase

/-- **A calm timer whose token is cancelled dispatches nothing any more**, if the clock goes on
only while it cannot move. -/
theorem eq_nil_of_patient
    (entry : e.timers[n]? = some t)
    (cancelled : e.isCancelled t.token = true)
    (calm : e.Calm t)
    (trail : e.Trail (Patient n) n l d) :
    l = [] := by
  suffices hcalm : l = [] ∧ ∃ t', d.timers[n]? = some t' ∧
      d.isCancelled t'.token = true ∧ d.Calm t' from hcalm.1
  induction trail with
  | start => exact ⟨rfl, t, entry, cancelled, calm⟩
  | own _ entry' move ih =>
      obtain ⟨rfl, t₁, ht₁, hcancelled, hcalm⟩ := ih
      obtain rfl := Option.some.inj (entry'.symm.trans ht₁)
      obtain ⟨t₂, hdriven⟩ := driven_of_entry ht₁ move
      obtain ⟨hnone, hpending⟩ := hdriven.drive.calm hcancelled hcalm
      refine ⟨hnone, t₂, hdriven.entry ht₁, ?_, Or.inl hpending⟩
      rw [hdriven.timeless.isCancelled, hdriven.drive.token]
      exact hcancelled
  | @other l a b _ step ih =>
      obtain ⟨rfl, t₁, ht₁, hcancelled, hcalm⟩ := ih
      obtain ⟨closed, ht₂⟩ := step.beside.timer t₁ ht₁
      refine ⟨rfl, _, ht₂, step.beside.cancelled _ hcancelled, hcalm.imp id ?_⟩
      rintro ⟨i, due, hphase, hnotYet⟩
      refine ⟨i, due, hphase, ?_⟩
      -- The cancelled timer can end its sleep, so the clock stands still.
      have hmoves : a.timerMoves n ≠ [] := by
        simp [timerMoves, ht₁, hphase, armedMoves, hcancelled]
      have hnow := step.clock.resolve_right hmoves
      rwa [nanos, hnow]

end Cancelled

section Histories

variable {c : Chain} {e e' : Executor}

/-- Whatever happens, tokens are only made and cancelled. -/
theorem Act.tokens (h : Act c e e') : e.tokens.Later e'.tokens := by
  cases h with
  | startEngine => exact .refl _
  | change h =>
      cases h with
      | drift h =>
          cases h with
          | move m h =>
              rw [(timeless_of_mem_moves h).tokens]
              exact .refl _
          | exhaust | clock | line | note | wait | launch => exact .refl _
      | close n =>
          rcases e.close_eq n with hEq | ⟨s, hEq⟩
          · rw [hEq]
            exact .refl _
          · rw [hEq]
            exact e.tokens.later_cancel s
      | trigger s => exact e.tokens.later_cancel _
      | rearm s =>
          unfold rearm
          split
          · exact e.tokens.later_fresh
          · exact .refl _
      | addJob | arm => exact e.tokens.later_fresh
      | giveUp | stopEngine => exact .refl _

/-- A timer that is exhausted is marked as closed. -/
theorem getElem?_exhaust
    (e : Executor)
    (k : Nat)
    {n : Nat}
    {t : Timer}
    (ht : e.timers[n]? = some t) :
    ∃ closed, (e.exhaust k).timers[n]? = some { t with closed := closed } := by
  show ∃ closed, (e.timers.modify k _)[n]? = some { t with closed := closed }
  rw [List.getElem?_modify, ht]
  by_cases hkn : k = n
  · exact ⟨true, by simp [hkn]⟩
  · exact ⟨t.closed, by simp [hkn]⟩

/-- The runs that the engine has started for a job are known by jobs and counters. -/
theorem starts_eq_of_map
    {j : JobId}
    (runs : e'.runs.map (fun run => (run.job, run.counted)) =
      e.runs.map fun run => (run.job, run.counted))
    (dispatched : e'.dispatched = e.dispatched) :
    e'.starts j = e.starts j := by
  have hmap : ∀ d : Executor, d.starts j =
      (d.runs.map fun run => (run.job, run.counted)).countP fun p =>
        p.1 == j && p.2 == some d.dispatched := by
    intro d
    rw [List.countP_map]
    rfl
  rw [hmap, hmap, runs, dispatched]

/-- No two timers have been armed for the same job. -/
def Distinct (e : Executor) : Prop :=
  ∀ (m n : Nat) (t u : Timer), e.timers[m]? = some t → e.timers[n]? = some u → t.job = u.job → m = n

/-- Timers that are distinct later were so before. -/
theorem Later.distinct_of
    (h : e.Later e')
    (distinct : e'.Distinct) :
    e.Distinct := by
  intro m n t u ht hu hjob
  obtain ⟨t', ht', hkt⟩ := h.timers m t ht
  obtain ⟨u', hu', hku⟩ := h.timers n u hu
  exact distinct m n t' u' ht' hu' (by rw [hkt.job, hku.job, hjob])

/-- A move of somebody else starts no run for the job of a timer. -/
theorem starts_of_mem_moves
    {m : Mover}
    {n : Nat}
    {t : Timer}
    (distinct : e.Distinct)
    (other : m ≠ .timer n)
    (h : e' ∈ e.moves m)
    (ht : e.timers[n]? = some t) :
    e'.starts t.job = e.starts t.job := by
  have hdispatched := (later_of_mem_moves h).1.dispatched
  cases m with
  | run r =>
      obtain ⟨run, run', hrun, hstep⟩ := runStep_of_mem_runMoves h
      refine starts_eq_of_map ?_ hdispatched
      rw [hstep.runs]
      exact map_set_of_eq hrun (by rw [hstep.job, hstep.counted])
  | timer k =>
      obtain ⟨u, u', hu, hdriven⟩ := driven_of_mem_timerMoves h
      have hjob : u.job ≠ t.job := by
        intro hjob
        obtain rfl := distinct k n u t hu ht hjob
        exact other rfl
      unfold starts
      rw [hdriven.runs, hdispatched, List.countP_append]
      unfold launches
      split <;> simp [activation, hjob]
  | waiter k =>
      obtain ⟨w, w', -, -, hstep⟩ := waiterStep_of_mem_waiterMoves h
      refine starts_eq_of_map ?_ hdispatched
      cases hstep with
      | pass _ _ hquiet => rw [hquiet.runs]
      | finish hquiet => rw [hquiet.runs]

/-- **Whatever happens is a move of the timer or happens beside it**, and starts no run for
its job then, if that is no other timer's job. -/
theorem Act.own_or_beside
    (h : Act c e e')
    (n : Nat) :
    e' ∈ e.timerMoves n ∨ e.Beside n e' ∧ (e.Distinct → e.Silent n e') := by
  have hcancelled := h.tokens.cancelled
  have hdispatched := h.later.dispatched
  have hquiet : e.Beside n e' → e'.runs = e.runs →
      e.Beside n e' ∧ (e.Distinct → e.Silent n e') := fun hbeside hruns =>
    ⟨hbeside, fun _ => ⟨hbeside, fun _ _ => starts_eq_of_map (by rw [hruns]) hdispatched⟩⟩
  have hsame : e'.timers[n]? = e.timers[n]? → e.Beside n e' := fun htimer =>
    ⟨fun t ht => ⟨t.closed, htimer.trans ht⟩, hcancelled⟩
  cases h with
  | startEngine => exact Or.inr (hquiet (hsame rfl) rfl)
  | change h =>
      cases h with
      | drift h =>
          cases h with
          | move m h =>
              by_cases hm : m = .timer n
              · subst hm
                exact Or.inl h
              · have hbeside := hsame (aside_of_mem_moves hm h).1.timer
                exact Or.inr ⟨hbeside, fun distinct =>
                  ⟨hbeside, fun t ht => starts_of_mem_moves distinct hm h ht⟩⟩
          | exhaust k =>
              exact Or.inr (hquiet ⟨fun t => e.getElem?_exhaust k, hcancelled⟩ rfl)
          | launch j ctx =>
              refine Or.inr ⟨hsame rfl, fun _ => ⟨hsame rfl, ?_⟩⟩
              intro t _
              simp [starts, spawn]
          | clock | line | note | wait => exact Or.inr (hquiet (hsame rfl) rfl)
      | close k =>
          rcases e.close_eq k with hEq | ⟨s, hEq⟩
          · exact Or.inr (hquiet (hsame (by rw [hEq])) (by rw [hEq]))
          · refine Or.inr (hquiet ⟨?_, hcancelled⟩ (by rw [hEq]; rfl))
            intro t ht
            rw [hEq]
            exact e.getElem?_exhaust k ht
      | rearm s =>
          have hrearm := e.quiet_rearm s
          exact Or.inr (hquiet (hsame (by rw [hrearm.timers])) hrearm.runs)
      | arm s j driven =>
          refine Or.inr (hquiet ⟨?_, hcancelled⟩ rfl)
          intro t ht
          have hlt : n < e.timers.length := (List.getElem?_eq_some_iff.1 ht).1
          refine ⟨t.closed, ?_⟩
          show (e.timers ++ [_])[n]? = _
          rw [List.getElem?_append_left hlt, ht]
      | giveUp | trigger | stopEngine | addJob => exact Or.inr (hquiet (hsame rfl) rfl)

/-- **Whatever happens leads along a trail**, on which no other run is started for the job of
the timer, if no two timers have been armed for one job. -/
theorem trail_of_acts
    (h : Acts c e e')
    (n : Nat) :
    ∃ l, e.Trail (Beside n) n l e' ∧ (e'.Distinct → e.Trail (Silent n) n l e') := by
  induction h with
  | refl => exact ⟨[], .start, fun _ => .start⟩
  | tail _ act ih =>
      obtain ⟨l, htrail, hsilent⟩ := ih
      have hbefore := act.later.distinct_of
      rcases act.own_or_beside n with hown | ⟨hbeside, hstep⟩
      · obtain ⟨t, -, ht, -⟩ := driven_of_mem_timerMoves hown
        exact ⟨_, htrail.own ht hown, fun distinct => (hsilent (hbefore distinct)).own ht hown⟩
      · exact ⟨l, htrail.other hbeside, fun distinct =>
          (hsilent (hbefore distinct)).other (hstep (hbefore distinct))⟩

/-- The tokens of all timers have been made. -/
def Known (e : Executor) : Prop :=
  ∀ t ∈ e.timers, t.token < e.tokens.table.length

/-- No timer is given another token. -/
theorem Act.map_token (h : Act c e e') :
    e'.timers.map Timer.token = e.timers.map Timer.token ∨
      e'.timers.map Timer.token = e.timers.map Timer.token ++ [e.tokens.table.length] ∧
        e.tokens.table.length < e'.tokens.table.length := by
  have hexhaust : ∀ k, (e.exhaust k).timers.map Timer.token = e.timers.map Timer.token := by
    intro k
    refine List.ext_getElem? fun n => ?_
    simp only [exhaust, List.getElem?_map, List.getElem?_modify]
    cases e.timers[n]? with
    | none => rfl
    | some t => by_cases hkn : k = n <;> simp [hkn]
  cases h with
  | startEngine => exact Or.inl rfl
  | change h =>
      cases h with
      | drift h =>
          cases h with
          | move m h =>
              left
              cases m with
              | run r =>
                  obtain ⟨run, run', -, hstep⟩ := runStep_of_mem_runMoves h
                  rw [hstep.timers]
              | timer n =>
                  obtain ⟨t, t', ht, hdriven⟩ := driven_of_mem_timerMoves h
                  rw [hdriven.timers]
                  exact map_set_of_eq ht hdriven.drive.token
              | waiter n =>
                  obtain ⟨w, w', -, -, hstep⟩ := waiterStep_of_mem_waiterMoves h
                  cases hstep with
                  | pass _ _ hquiet => rw [hquiet.timers]
                  | finish hquiet => rw [hquiet.timers]
          | exhaust k => exact Or.inl (hexhaust k)
          | clock | line | note | wait | launch => exact Or.inl rfl
      | close k =>
          left
          rcases e.close_eq k with hEq | ⟨s, hEq⟩
          · rw [hEq]
          · rw [hEq]
            exact hexhaust k
      | rearm s => exact Or.inl (by rw [(e.quiet_rearm s).timers])
      | arm s j driven =>
          refine Or.inr ⟨List.map_append, ?_⟩
          show _ < (e.tokens.table ++ [_]).length
          rw [List.length_append]
          exact Nat.lt_succ_self _
      | giveUp | trigger | stopEngine | addJob => exact Or.inl rfl

theorem Known.act
    (known : e.Known)
    (h : Act c e e') :
    e'.Known := by
  intro t ht
  have hmem : t.token ∈ e'.timers.map Timer.token := List.mem_map_of_mem ht
  have hold : t.token ∈ e.timers.map Timer.token → t.token < e'.tokens.table.length := by
    intro hold
    obtain ⟨u, hu, hEq⟩ := List.mem_map.1 hold
    exact hEq ▸ Nat.lt_of_lt_of_le (known u hu) h.tokens.length
  rcases h.map_token with hsame | ⟨hmore, hlt⟩
  · exact hold (hsame ▸ hmem)
  · rw [hmore, List.mem_append, List.mem_singleton] at hmem
    rcases hmem with hmem | hnew
    · exact hold hmem
    · rwa [hnew]

theorem Known.acts
    (known : e.Known)
    (h : Acts c e e') :
    e'.Known := by
  induction h with
  | refl => exact known
  | tail _ act ih => exact ih.act act

/-- A timer has been closed, and its token cancelled; it stands where it stood, no time has
passed, and no run has been started for its job. -/
structure Closes
    (e e' : Executor)
    (n : Nat)
    (t : Timer) :
    Prop where
  timer : e'.timers[n]? = some { t with closed := true }
  cancelled : e'.isCancelled t.token = true
  now : e'.now = e.now
  starts : e'.starts t.job = e.starts t.job

theorem closes_close
    {n : Nat}
    {t : Timer}
    (known : e.Known)
    (entry : e.timers[n]? = some t) :
    e.Closes (e.close n) n t := by
  have hclose : e.close n = (e.setTimer n { t with closed := true }).cancel t.token := by
    simp only [close, entry]
  rw [hclose]
  refine ⟨List.getElem?_set_self (List.getElem?_eq_some_iff.1 entry).1, ?_, rfl, rfl⟩
  exact Tokens.isCancelled_cancel_self (known t (List.mem_of_getElem? entry))

end Histories

end Executor
end Timetable
