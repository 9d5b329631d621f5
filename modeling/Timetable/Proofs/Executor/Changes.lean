import Timetable.Proofs.Executor.Moves

/-!
# How the executor changes

Between two actions of the registry the executor drifts: tasks move in any order,
time passes, a timer is exhausted at any moment, somebody begins to wait, a run
is started by hand.  Turns are one way to drift.  The registry changes the
executor besides: it arms and closes timers, starts and stops the engine, and
gives the shutdown signal a token or cancels it.

Main results:

* whatever happens in turns, and while somebody waits for trackers, is a drift
  (drifts_settle, drifts_waitFor), and unless somebody begins to wait for trackers or a run
  is started by hand, the executor only ticks (ticks_settle, ticks_passUntil);
* runs, jobs and timers stay what they are, and what has ended or is closed stays
  so (Drift.later, Change.later);
* a drift arms no timer (Drift.length_timers).
-/

namespace Timetable

/-- The run is counted as before, and is over if it was. -/
structure Run.Keeps (run run' : Run) : Prop where
  counted : run'.counted = run.counted
  ended : run.isOver = true → run'.isOver = true

namespace Executor

/-- Something happens that is not the registry's doing. -/
inductive Drift (e : Executor) : Executor → Prop where
  | move
      (m : Mover)
      {e' : Executor}
      (h : e' ∈ e.moves m) :
      Drift e e'
  | exhaust (n : Nat) : Drift e (e.exhaust n)
  | clock (now : Nat) : Drift e (e.setClock now)
  | line
      (ready waiting : List Mover) :
      Drift e { e with ready := ready, waiting := waiting }
  | note (event : Event) : Drift e (e.note event)
  | wait
      (trackers : List TrackerId)
      (farewell : Option LogLine) :
      Drift e { e with waiters := e.waiters ++ [⟨trackers, farewell, e.now, none⟩] }
  | launch
      (j : JobId)
      (ctx : Context) :
      Drift e (e.spawn j ctx none)

/-- Things happen one after the other that are not the registry's doing. -/
abbrev Drifts : Executor → Executor → Prop :=
  Relation.ReflTransGen Drift

/-- One change of the executor other than starting the engine: a drift, giving up, or a part
of what a registry with a chain does. -/
inductive Change (c : Chain) (e : Executor) : Executor → Prop where
  | drift
      {e' : Executor}
      (h : e.Drift e') :
      Change c e e'
  | giveUp (n : Nat) : Change c e (e.giveUp n)
  | close (n : Nat) : Change c e (e.close n)
  | trigger (s : SignalId) : Change c e (e.trigger s)
  | rearm (s : SignalId) : Change c e (e.rearm s)
  | stopEngine : Change c e e.stopEngine
  | addJob
      (key : String)
      (value : Value)
      (script : Script) :
      Change c e (e.addJob c key value script).1
  | arm
      (s : Schedule)
      (j : JobId)
      (driven : Bool) :
      Change c e (e.arm s j driven).1

/-- Changes one after the other. -/
abbrev Changes (c : Chain) : Executor → Executor → Prop :=
  Relation.ReflTransGen (Change c)

/-- Something happens while tasks take turns: one of them moves, the clock goes on, those who can
move change places, somebody begins to wait. -/
inductive Tick (e : Executor) : Executor → Prop where
  | move
      (m : Mover)
      {e' : Executor}
      (h : e' ∈ e.moves m) :
      Tick e e'
  | clock (now : Nat) : Tick e (e.setClock now)
  | line
      (ready waiting : List Mover) :
      Tick e { e with ready := ready, waiting := waiting }
  | wait
      (trackers : List TrackerId)
      (farewell : Option LogLine) :
      Tick e { e with waiters := e.waiters ++ [⟨trackers, farewell, e.now, none⟩] }

/-- Things happen one after the other while tasks take turns. -/
abbrev Ticks : Executor → Executor → Prop :=
  Relation.ReflTransGen Tick

theorem Tick.drift
    {e e' : Executor}
    (h : e.Tick e') :
    e.Drift e' := by
  cases h with
  | move m h => exact .move m h
  | clock now => exact .clock now
  | line ready waiting => exact .line ready waiting
  | wait trackers farewell => exact .wait trackers farewell

theorem Ticks.drifts
    {e e' : Executor}
    (h : e.Ticks e') :
    e.Drifts e' :=
  Relation.ReflTransGen.mono (fun _ _ => Tick.drift) _ _ h

section Turns

theorem drifts_noteAll
    (e : Executor)
    (events : List Event) :
    e.Drifts (e.noteAll events) := by
  induction events generalizing e with
  | nil => exact .refl
  | cons event events ih => exact .head (.note event) (ih (e.note event))

theorem ticks_rouse (e : Executor) : e.Ticks e.rouse := by
  unfold rouse
  dsimp only
  split
  · exact .refl
  · exact .single (.line _ _)

theorem ticks_rest
    (e : Executor)
    (m : Mover) :
    e.Ticks (e.rest m) := by
  unfold rest
  split
  · exact .refl
  · exact .single (.line e.ready _)

theorem ticks_turnWith
    (breath n : Nat)
    (e : Executor)
    (m : Mover) :
    e.Ticks (turnWith breath n e m) := by
  induction n generalizing breath e with
  | zero => exact e.ticks_rest m
  | succ n ih =>
      have hmove : ∀ e' es left, e.moves m = e' :: es →
          e.Ticks (turnWith left n e'.rouse m) := by
        intro e' es left h
        have hmem : e' ∈ e.moves m := by
          rw [h]
          exact List.mem_cons_self
        exact .head (.move m hmem) (e'.ticks_rouse.trans (ih left e'.rouse))
      unfold turnWith
      split
      · exact e.ticks_rest m
      · exact .single (.line _ e.waiting)
      · rename_i hmoves _
        exact hmove _ _ _ hmoves
      · rename_i hmoves _
        exact hmove _ _ _ hmoves

theorem ticks_turn
    (e : Executor)
    (m : Mover) :
    e.Ticks (e.turn m) :=
  ticks_turnWith breath patience e m

theorem ticks_settleFor
    (n : Nat)
    (e : Executor) :
    e.Ticks (settleFor n e) := by
  induction n generalizing e with
  | zero => exact .refl
  | succ n ih =>
      unfold settleFor
      split
      · exact .refl
      · rename_i m e' h
        have hfirst : e.Ticks e' := by
          unfold firstReady at h
          split at h
          · simp at h
          · cases h
            exact .single (.line _ e.waiting)
        exact (hfirst.trans (e'.ticks_turn m)).trans (ih _)

theorem ticks_settle (e : Executor) : e.Ticks e.settle :=
  e.ticks_rouse.trans (ticks_settleFor _ _)

theorem ticks_passUntil
    (ended : Executor → Bool)
    (target : Nat)
    (e : Executor) :
    e.Ticks (passUntil ended target e) := by
  have hlater : ∀ (e : Executor) (now : Nat), e.Ticks (e.setClock now).settle := fun e now =>
    .head (.clock now) (ticks_settle _)
  fun_induction passUntil ended target e with
  | case1 => exact .refl
  | case2 => exact hlater _ _
  | case3 => exact .refl
  | case4 e _ alarm _ _ later _ ih => exact (hlater e alarm).trans ih
  | case5 e _ alarm _ _ later _ => exact hlater e alarm
  | case6 => exact hlater _ _
  | case7 => exact .refl

theorem ticks_await
    (e : Executor)
    (trackers : List TrackerId)
    (farewell : Option LogLine) :
    e.Ticks (e.await trackers farewell).1 :=
  .head (.wait trackers farewell) (ticks_turn _ _)

/-- Somebody who waits for trackers sees turns pass, and may give up in between. -/
theorem ticks_waitFor
    (e : Executor)
    (trackers : List TrackerId)
    (farewell : Option LogLine)
    (limit : Nat) :
    let result := e.waitFor trackers farewell limit
    let n := e.waiters.length
    result.2.1 = true ∧ hasWaited n result.1 = true ∧
        (e.await trackers farewell).1.Ticks result.1 ∨
      result.2.1 = false ∧
        ∃ e₁, (e.await trackers farewell).1.Ticks e₁ ∧ (e₁.giveUp n).Ticks result.1 := by
  have hn : (e.await trackers farewell).2 = e.waiters.length := rfl
  simp only [waitFor, hn]
  by_cases hfirst : hasWaited e.waiters.length (e.await trackers farewell).1 = true
  · rw [if_pos hfirst]
    exact Or.inl ⟨rfl, hfirst, .refl⟩
  · rw [if_neg hfirst]
    have hpass := (ticks_settle (e.await trackers farewell).1).trans
      (ticks_passUntil (hasWaited e.waiters.length) (e.now + limit - 1) _)
    split
    · rename_i hlater
      exact Or.inl ⟨rfl, hlater, hpass⟩
    · exact Or.inr ⟨rfl, _, hpass.tail (.clock _), ticks_settle _⟩

theorem drifts_turn
    (e : Executor)
    (m : Mover) :
    e.Drifts (e.turn m) :=
  Ticks.drifts (e.ticks_turn m)

/-- Letting movers take turns is a drift. -/
theorem drifts_settle (e : Executor) : e.Drifts e.settle :=
  Ticks.drifts e.ticks_settle

theorem drifts_passUntil
    (ended : Executor → Bool)
    (target : Nat)
    (e : Executor) :
    e.Drifts (passUntil ended target e) :=
  Ticks.drifts (ticks_passUntil ended target e)

theorem drifts_await
    (e : Executor)
    (trackers : List TrackerId)
    (farewell : Option LogLine) :
    e.Drifts (e.await trackers farewell).1 :=
  Ticks.drifts (e.ticks_await trackers farewell)

/-- Waiting for trackers is a drift, which may be interrupted by giving up. -/
theorem drifts_waitFor
    (e : Executor)
    (trackers : List TrackerId)
    (farewell : Option LogLine)
    (limit : Nat) :
    let result := e.waitFor trackers farewell limit
    let n := e.waiters.length
    result.2.1 = true ∧ hasWaited n result.1 = true ∧
        (e.await trackers farewell).1.Drifts result.1 ∨
      result.2.1 = false ∧
        ∃ e₁, (e.await trackers farewell).1.Drifts e₁ ∧ (e₁.giveUp n).Drifts result.1 := by
  rcases e.ticks_waitFor trackers farewell limit with ⟨hended, hwaited, h⟩ | ⟨hended, e₁, h, h'⟩
  · exact Or.inl ⟨hended, hwaited, Ticks.drifts h⟩
  · exact Or.inr ⟨hended, e₁, Ticks.drifts h, Ticks.drifts h'⟩

end Turns

/-- A later state: runs, jobs and timers are what they were, and what had ended or was closed
still is. -/
structure Later (e e' : Executor) : Prop where
  dispatched : e'.dispatched = e.dispatched
  trackers : e'.trackers.length = e.trackers.length
  runs : ∀ (r : RunId) (run : Run), e.runs[r]? = some run →
    ∃ run', e'.runs[r]? = some run' ∧ run.Keeps run'
  jobs : e.jobs.length ≤ e'.jobs.length
  keys : ∀ j < e.jobs.length, e'.jobKey j = e.jobKey j
  timers : ∀ (n : Nat) (t : Timer), e.timers[n]? = some t →
    ∃ t', e'.timers[n]? = some t' ∧ t.Keeps t'

theorem Later.refl (e : Executor) : e.Later e :=
  ⟨rfl, rfl, fun _ run h => ⟨run, h, rfl, id⟩, Nat.le_refl _, fun _ _ => rfl,
    fun _ t h => ⟨t, h, rfl, id⟩⟩

theorem Later.trans
    {a b c : Executor}
    (hab : a.Later b)
    (hbc : b.Later c) :
    a.Later c := by
  refine ⟨hbc.dispatched.trans hab.dispatched, hbc.trackers.trans hab.trackers, ?_,
    hab.jobs.trans hbc.jobs, ?_, ?_⟩
  · intro r run h
    obtain ⟨run', h', hk⟩ := hab.runs r run h
    obtain ⟨run'', h'', hk'⟩ := hbc.runs r run' h'
    exact ⟨run'', h'', hk'.counted.trans hk.counted, hk'.ended ∘ hk.ended⟩
  · intro j hj
    exact (hbc.keys j (Nat.lt_of_lt_of_le hj hab.jobs)).trans (hab.keys j hj)
  · intro n t h
    obtain ⟨t', h', hk⟩ := hab.timers n t h
    obtain ⟨t'', h'', hk'⟩ := hbc.timers n t' h'
    exact ⟨t'', h'', hk'.job.trans hk.job, hk'.closed ∘ hk.closed⟩

/-- A table of which one place is set to what keeps what stood there. -/
theorem keeps_set
    {α : Type}
    {R : α → α → Prop}
    (hrefl : ∀ a, R a a)
    {l : List α}
    {i : Nat}
    {a a' : α}
    (hi : l[i]? = some a)
    (ha : R a a')
    {k : Nat}
    {b : α}
    (hk : l[k]? = some b) :
    ∃ b', (l.set i a')[k]? = some b' ∧ R b b' := by
  have hlt : i < l.length := (List.getElem?_eq_some_iff.1 hi).1
  by_cases hik : i = k
  · subst hik
    rw [hi] at hk
    cases hk
    exact ⟨a', List.getElem?_set_self hlt, ha⟩
  · exact ⟨b, by rw [List.getElem?_set_ne hik, hk], hrefl b⟩

/-- A longer table keeps what it has. -/
theorem keeps_append
    {α : Type}
    {R : α → α → Prop}
    (hrefl : ∀ a, R a a)
    {l : List α}
    (more : List α)
    {k : Nat}
    {b : α}
    (hk : l[k]? = some b) :
    ∃ b', (l ++ more)[k]? = some b' ∧ R b b' := by
  have hlt : k < l.length := (List.getElem?_eq_some_iff.1 hk).1
  exact ⟨b, by rw [List.getElem?_append_left hlt, hk], hrefl b⟩

/-- What stands in a table with one more entry stood there before, or is the new entry. -/
theorem getElem?_concat_cases
    {α : Type}
    {l : List α}
    {a b : α}
    {k : Nat}
    (h : (l ++ [a])[k]? = some b) :
    l[k]? = some b ∨ k = l.length ∧ b = a := by
  rcases Nat.lt_or_ge k l.length with hk | hk
  · rw [List.getElem?_append_left hk] at h
    exact Or.inl h
  · rw [List.getElem?_append_right hk, List.getElem?_singleton] at h
    split at h
    · cases h
      exact Or.inr ⟨by omega, rfl⟩
    · simp at h

/-- A state with the same runs, timers and counts is a later one. -/
theorem later_of_eq
    {e e' : Executor}
    (runs : e'.runs = e.runs)
    (timers : e'.timers = e.timers)
    (trackers : e'.trackers = e.trackers)
    (dispatched : e'.dispatched = e.dispatched)
    (jobs : e.KeepsJobs e') :
    e.Later e' := by
  refine ⟨dispatched, congrArg List.length trackers, ?_, jobs.length.ge, ?_, ?_⟩
  · intro r run h
    exact ⟨run, runs ▸ h, rfl, id⟩
  · intro j _
    exact jobs.jobKey j
  · intro n t h
    exact ⟨t, timers ▸ h, rfl, id⟩

theorem Quiet.later
    {e e' : Executor}
    (h : e.Quiet e') :
    e.Later e' :=
  later_of_eq h.runs h.timers h.trackers h.dispatched h.jobs

/-- Setting a timer leads to a later state, if the timer keeps its job and stays closed. -/
theorem later_setTimer
    {e : Executor}
    {n : Nat}
    {t t' : Timer}
    (ht : e.timers[n]? = some t)
    (hk : t.Keeps t') :
    e.Later (e.setTimer n t') :=
  ⟨rfl, rfl, fun _ run h => ⟨run, h, rfl, id⟩, Nat.le_refl _, fun _ _ => rfl,
    fun _ _ h => keeps_set (fun _ => ⟨rfl, id⟩) ht hk h⟩

/-- Starting a run leads to a later state. -/
theorem later_spawn
    (e : Executor)
    (j : JobId)
    (ctx : Context)
    (counted : Option TrackerId) :
    e.Later (e.spawn j ctx counted) :=
  ⟨rfl, rfl, fun _ _ h => keeps_append (fun _ => ⟨rfl, id⟩) _ h, Nat.le_refl _,
    fun _ _ => rfl, fun _ t h => ⟨t, h, rfl, id⟩⟩

theorem RunStep.later
    {e e' : Executor}
    {r : RunId}
    {run run' : Run}
    (hrun : e.runs[r]? = some run)
    (h : e.RunStep e' r run run') :
    e.Later e' := by
  refine ⟨h.dispatched, h.length, ?_, h.jobs.length.ge, fun j _ => h.jobs.jobKey j, ?_⟩
  · intro k other hk
    rw [h.runs]
    refine keeps_set (fun _ => ⟨rfl, id⟩) hrun ⟨h.counted, ?_⟩ hk
    intro hover
    rw [h.lasts] at hover
    simp at hover
  · intro n t ht
    exact ⟨t, h.timers ▸ ht, rfl, id⟩

theorem TimerStep.later
    {e e' : Executor}
    {n : Nat}
    {t t' : Timer}
    (ht : e.timers[n]? = some t)
    (hk : t.Keeps t')
    (h : e.TimerStep e' n t t') :
    e.Later e' := by
  cases h with
  | quiet hquiet => exact (later_setTimer ht hk).trans hquiet.later
  | count _ hEq =>
      obtain ⟨journal, henter⟩ := e.enter_eq e.dispatched
      rw [hEq, henter]
      refine Later.trans (b := { e with
        trackers := e.trackers.modify e.dispatched Tracker.enter, journal := journal })
        ?_ (later_setTimer ht hk)
      exact ⟨rfl, List.length_modify .., fun _ run h => ⟨run, h, rfl, id⟩, Nat.le_refl _,
        fun _ _ => rfl, fun _ t h => ⟨t, h, rfl, id⟩⟩
  | activate metric ctx hEq =>
      rw [hEq]
      exact ((e.quiet_note _).later.trans (later_setTimer ht hk)).trans (later_spawn _ _ _ _)

theorem WaiterStep.later
    {e e' : Executor}
    {n : Nat}
    {w w' : Waiter}
    (h : e.WaiterStep e' n w w') :
    e.Later e' := by
  have hset : e.Later { e with waiters := e.waiters.set n w' } :=
    later_of_eq rfl rfl rfl rfl (.of_eq rfl)
  cases h with
  | pass _ _ hquiet => exact hset.trans hquiet.later
  | finish hquiet => exact hset.trans hquiet.later

theorem later_of_mem_moves
    {e e' : Executor}
    {m : Mover}
    (h : e' ∈ e.moves m) :
    e.Later e' ∧ e'.timers.length = e.timers.length := by
  cases m with
  | run r =>
      obtain ⟨run, run', hrun, hstep⟩ := runStep_of_mem_runMoves h
      exact ⟨hstep.later hrun, congrArg List.length hstep.timers⟩
  | timer n =>
      obtain ⟨t, t', ht, hk, hstep⟩ := timerStep_of_mem_timerMoves h
      refine ⟨hstep.later ht hk, ?_⟩
      cases hstep with
      | quiet hquiet => rw [hquiet.timers, List.length_set]
      | count _ hEq =>
          obtain ⟨journal, henter⟩ := e.enter_eq e.dispatched
          rw [hEq, henter]
          exact List.length_set ..
      | activate metric ctx hEq =>
          rw [hEq]
          exact List.length_set ..
  | waiter n =>
      obtain ⟨w, w', -, -, hstep⟩ := waiterStep_of_mem_waiterMoves h
      refine ⟨hstep.later, ?_⟩
      cases hstep with
      | pass _ _ hquiet => exact congrArg List.length hquiet.timers
      | finish hquiet => exact congrArg List.length hquiet.timers

/-- To exhaust a timer is to set it to its closed self, if there is one. -/
theorem exhaust_eq
    (e : Executor)
    (n : Nat) :
    e.exhaust n = e ∨
      ∃ t, e.timers[n]? = some t ∧ e.exhaust n = e.setTimer n { t with closed := true } := by
  unfold exhaust setTimer
  cases ht : e.timers[n]? with
  | none =>
      left
      rw [List.modify_eq_self (List.getElem?_eq_none_iff.1 ht)]
  | some t =>
      right
      refine ⟨t, rfl, ?_⟩
      rw [← set_eq_modify (fun t : Timer => { t with closed := true }) ht]

/-- To close a timer is to exhaust it and to cancel its token. -/
theorem close_eq
    (e : Executor)
    (n : Nat) :
    e.close n = e ∨ ∃ s, e.close n = (e.exhaust n).cancel s := by
  unfold close
  cases ht : e.timers[n]? with
  | none => exact Or.inl rfl
  | some t =>
      right
      refine ⟨t.token, ?_⟩
      unfold exhaust setTimer
      rw [← set_eq_modify (fun t : Timer => { t with closed := true }) ht]

theorem later_exhaust
    (e : Executor)
    (n : Nat) :
    e.Later (e.exhaust n) := by
  rcases e.exhaust_eq n with hEq | ⟨t, ht, hEq⟩
  · rw [hEq]
    exact .refl e
  · rw [hEq]
    exact later_setTimer ht ⟨rfl, fun _ => rfl⟩

theorem Drift.later
    {e e' : Executor}
    (h : e.Drift e') :
    e.Later e' := by
  cases h with
  | move m h => exact (later_of_mem_moves h).1
  | exhaust n => exact e.later_exhaust n
  | launch j ctx => exact e.later_spawn j ctx none
  | clock | line | note | wait => exact later_of_eq rfl rfl rfl rfl (.of_eq rfl)

/-- A drift arms no timer. -/
theorem Drift.length_timers
    {e e' : Executor}
    (h : e.Drift e') :
    e'.timers.length = e.timers.length := by
  cases h with
  | move m h => exact (later_of_mem_moves h).2
  | exhaust n => exact List.length_modify ..
  | launch | clock | line | note | wait => rfl

theorem Drifts.later
    {e e' : Executor}
    (h : e.Drifts e') :
    e.Later e' := by
  induction h with
  | refl => exact .refl e
  | tail _ h ih => exact ih.trans h.later

theorem Drifts.length_timers
    {e e' : Executor}
    (h : e.Drifts e') :
    e'.timers.length = e.timers.length := by
  induction h with
  | refl => rfl
  | tail _ h ih => exact h.length_timers.trans ih

theorem later_close
    (e : Executor)
    (n : Nat) :
    e.Later (e.close n) := by
  rcases e.close_eq n with hEq | ⟨s, hEq⟩
  · rw [hEq]
    exact .refl e
  · rw [hEq]
    exact (e.later_exhaust n).trans (quiet_cancel _ s).later

theorem quiet_rearm
    (e : Executor)
    (s : SignalId) :
    e.Quiet (e.rearm s) := by
  unfold rearm
  split
  · exact ⟨rfl, rfl, rfl, rfl, rfl, rfl, .of_eq rfl⟩
  · exact .refl e

theorem later_addJob
    (e : Executor)
    (c : Chain)
    (key : String)
    (value : Value)
    (script : Script) :
    e.Later (e.addJob c key value script).1 := by
  refine ⟨rfl, rfl, fun _ run h => ⟨run, h, rfl, id⟩, ?_, ?_, fun _ t h => ⟨t, h, rfl, id⟩⟩
  · show e.jobs.length ≤ (e.jobs ++ [_]).length
    rw [List.length_append]
    omega
  · intro j hj
    unfold jobKey
    show (((e.jobs ++ [_])[j]?).map fun job : Job => job.task.key).getD "" = _
    rw [List.getElem?_append_left hj]

theorem later_arm
    (e : Executor)
    (s : Schedule)
    (j : JobId)
    (driven : Bool) :
    e.Later (e.arm s j driven).1 :=
  ⟨rfl, rfl, fun _ run h => ⟨run, h, rfl, id⟩, Nat.le_refl _, fun _ _ => rfl,
    fun _ _ h => keeps_append (fun _ => ⟨rfl, id⟩) _ h⟩

/-- Every change leads to a later state. -/
theorem Change.later
    {c : Chain}
    {e e' : Executor}
    (h : Change c e e') :
    e.Later e' := by
  cases h with
  | drift h => exact h.later
  | close n => exact e.later_close n
  | rearm s => exact (e.quiet_rearm s).later
  | addJob key value script => exact e.later_addJob c key value script
  | arm s j driven => exact e.later_arm s j driven
  | giveUp | trigger | stopEngine => exact later_of_eq rfl rfl rfl rfl (.of_eq rfl)

theorem Drifts.changes
    {c : Chain}
    {e e' : Executor}
    (h : e.Drifts e') :
    Changes c e e' :=
  Relation.ReflTransGen.mono (fun _ _ => .drift) _ _ h

theorem later_startEngine (e : Executor) : e.Later e.startEngine :=
  later_of_eq rfl rfl rfl rfl (.of_eq rfl)

/-- One change of the executor, or the start of its engine. -/
inductive Act (c : Chain) (e : Executor) : Executor → Prop where
  | change
      {e' : Executor}
      (h : Change c e e') :
      Act c e e'
  | startEngine : Act c e e.startEngine

/-- Whatever happens to the executor of a registry with a chain, in any order. -/
abbrev Acts (c : Chain) : Executor → Executor → Prop :=
  Relation.ReflTransGen (Act c)

theorem Changes.acts
    {c : Chain}
    {e e' : Executor}
    (h : Changes c e e') :
    Acts c e e' :=
  Relation.ReflTransGen.mono (fun _ _ => .change) _ _ h

theorem Act.later
    {c : Chain}
    {e e' : Executor}
    (h : Act c e e') :
    e.Later e' := by
  cases h with
  | change h => exact h.later
  | startEngine => exact e.later_startEngine

theorem Acts.later
    {c : Chain}
    {e e' : Executor}
    (h : Acts c e e') :
    e.Later e' := by
  induction h with
  | refl => exact .refl e
  | tail _ h ih => exact ih.trans h.later

end Executor
end Timetable
