import Timetable.Proofs.Executor.Quiet

/-!
# What a move changes

A task moves by changing its own entry in the table of runs, timers or waiters;
apart from that it may count itself in or out of a tracker and start a run, and
the rest is quiet.  Here this is said once for each kind of task, with what the
move does to the counts of the trackers.

The load of a run on a tracker is the number of times that it is counted there:
once for each frame that counts it, and once more while it lasts if its whole
run is counted.

Main results:

* a move of a run changes the count of a tracker as it changes the load of the
  run (runStep_of_mem_runMoves);
* a move of a timer counts an activation, starts the run of one that has been
  counted, or changes no count (timerStep_of_mem_timerMoves);
* somebody who waits goes past a tracker only if it counts no run
  (waiterStep_of_mem_waiterMoves).
-/

namespace Timetable

namespace Run

/-- How often a tracker counts a run: for each frame that counts it, and for the whole run
if that is counted and lasts. -/
def load (run : Run) (t : TrackerId) : Nat :=
  run.stack.count (.track t) + if run.counted = some t ∧ run.isOver = false then 1 else 0

theorem count_le_load
    (run : Run)
    (t : TrackerId) :
    run.stack.count (.track t) ≤ run.load t :=
  Nat.le_add_right _ _

end Run

/-- The timer has counted an activation and not started its run. -/
def Timer.isCounted (timer : Timer) : Bool :=
  match timer.phase with
  | .counted _ => true
  | _ => false

/-- The timer has its job for good, and stays closed. -/
structure Timer.Keeps (t t' : Timer) : Prop where
  job : t'.job = t.job
  closed : t.closed = true → t'.closed = true

namespace Executor

/-- One move of a run: it changes its own entry, and the count of each tracker as it
changes its load there. -/
structure RunStep
    (e e' : Executor)
    (r : RunId)
    (run run' : Run) : Prop where
  lasts : run.isOver = false
  job : run'.job = run.job
  counted : run'.counted = run.counted
  runs : e'.runs = e.runs.set r run'
  timers : e'.timers = e.timers
  waiters : e'.waiters = e.waiters
  length : e'.trackers.length = e.trackers.length
  inFlight : ∀ t < e.trackers.length, e'.inFlight t = e.inFlight t + run'.load t - run.load t
  running : e'.running = e.running
  dispatched : e'.dispatched = e.dispatched
  jobs : e.KeepsJobs e'
  entered : ∀ t, .track t ∈ run'.stack → .track t ∈ run.stack ∨
    ∃ job, e.jobs[run.job]? = some job ∧ .track t ∈ job.layers

/-- A quiet move of a run keeps its frames that count it. -/
theorem runStep_of_quiet
    {e e₁ : Executor}
    {run : Run}
    {stack : List Frame}
    {c : Control}
    (r : RunId)
    (h : e.Quiet e₁)
    (lasts : run.isOver = false)
    (lasts' : { run with stack := stack, control := c }.isOver = false)
    (hstack : ∀ t, stack.count (.track t) = run.stack.count (.track t)) :
    e.RunStep (e₁.resume r run stack c) r run { run with stack := stack, control := c } := by
  refine ⟨lasts, rfl, rfl, ?_, h.timers, h.waiters, congrArg List.length h.trackers, ?_,
    h.running, h.dispatched, ?_, ?_⟩
  · show e₁.runs.set r _ = e.runs.set r _
    rw [h.runs]
  · intro t _
    have hsame : (e₁.resume r run stack c).inFlight t = e.inFlight t := by
      show ((e₁.trackers[t]?).map Tracker.count).getD 0 = _
      rw [h.trackers]
      rfl
    rw [hsame]
    simp only [Run.load, hstack t, lasts, lasts']
    omega
  · exact ⟨h.jobs.length, h.jobs.keeps⟩
  · intro t ht
    rw [← List.count_pos_iff, hstack t, List.count_pos_iff] at ht
    exact Or.inl ht

/-- A move behind a guard is made exactly when the guard holds. -/
theorem mem_guarded_iff
    {guard : Prop}
    [Decidable guard]
    {e e' : Executor} :
    e' ∈ (if guard then [e] else []) ↔ guard ∧ e' = e := by
  rw [List.mem_ite_nil_right, List.mem_singleton]

/-- Setting a place to a function of what stands there modifies the place. -/
theorem set_eq_modify
    {α : Type}
    {l : List α}
    {i : Nat}
    {a : α}
    (f : α → α)
    (h : l[i]? = some a) :
    l.set i (f a) = l.modify i f := by
  have : Inhabited α := ⟨a⟩
  rw [List.modify_eq_set, h, Option.getD_some]

/-- What stands at a place may be replaced by what looks the same. -/
theorem map_set_of_eq
    {α β : Type}
    {f : α → β}
    {l : List α}
    {i : Nat}
    {a b : α}
    (h : l[i]? = some a)
    (same : f b = f a) :
    (l.set i b).map f = l.map f := by
  obtain ⟨hi, rfl⟩ := List.getElem?_eq_some_iff.1 h
  rw [List.map_set, same, ← List.getElem_map f (h := by simpa using hi), List.set_getElem_self]

theorem enter_eq
    (e : Executor)
    (t : TrackerId) :
    ∃ journal, e.enter t =
      { e with trackers := e.trackers.modify t Tracker.enter, journal := journal } := by
  unfold enter
  cases h : e.trackers[t]? with
  | none =>
      refine ⟨e.journal, ?_⟩
      rw [List.modify_eq_self (List.getElem?_eq_none_iff.1 h)]
  | some tracker =>
      refine ⟨e.journal.noteAll tracker.enter.gauge, ?_⟩
      rw [← set_eq_modify _ h]
      rfl

theorem leave_eq
    (e : Executor)
    (t : TrackerId) :
    ∃ journal, e.leave t =
      { e with trackers := e.trackers.modify t Tracker.leave, journal := journal } := by
  unfold leave
  cases h : e.trackers[t]? with
  | none =>
      refine ⟨e.journal, ?_⟩
      rw [List.modify_eq_self (List.getElem?_eq_none_iff.1 h)]
  | some tracker =>
      refine ⟨e.journal.noteAll tracker.leave.gauge, ?_⟩
      rw [← set_eq_modify _ h]
      rfl

theorem inFlight_enter
    (e : Executor)
    (t : TrackerId)
    {u : TrackerId}
    (hu : u < e.trackers.length) :
    (e.enter t).inFlight u = e.inFlight u + if t = u then 1 else 0 := by
  obtain ⟨journal, h⟩ := e.enter_eq t
  rw [h]
  simp only [inFlight, List.getElem?_modify, List.getElem?_eq_getElem hu]
  split <;> simp [Tracker.enter]

theorem inFlight_leave
    (e : Executor)
    (t u : TrackerId) :
    (e.leave t).inFlight u = e.inFlight u - if t = u then 1 else 0 := by
  obtain ⟨journal, h⟩ := e.leave_eq t
  rw [h]
  simp only [inFlight, List.getElem?_modify]
  cases e.trackers[u]? with
  | none => simp
  | some tracker => split <;> simp [Tracker.leave]

/-- A run that enters a tracker as it enters a layer is counted there once more. -/
theorem runStep_enter
    (e : Executor)
    {r : RunId}
    {run : Run}
    {t : TrackerId}
    {ctx : Context}
    {job : Job}
    (lasts : run.isOver = false)
    (hjob : e.jobs[run.job]? = some job)
    (hlayer : Layer.track t ∈ job.layers) :
    e.RunStep ((e.enter t).push r run (.track t) (.entering ctx)) r run
      { run with stack := .track t :: run.stack, control := .entering ctx } := by
  obtain ⟨journal, h⟩ := e.enter_eq t
  refine ⟨lasts, rfl, rfl, by rw [h]; rfl, by rw [h]; rfl, by rw [h]; rfl, ?_, ?_,
    by rw [h]; rfl, by rw [h]; rfl, by rw [h]; exact .of_eq rfl, ?_⟩
  · rw [h]
    exact List.length_modify ..
  · intro u hu
    have hcount := e.inFlight_enter t hu
    show (e.enter t).inFlight u = _
    rw [hcount]
    simp only [Run.load, lasts, List.count_cons]
    by_cases htu : t = u
    · subst htu
      simp [Run.isOver]
      omega
    · have : ¬ Frame.track t = .track u := by simpa using htu
      simp [Run.isOver, htu, this]
  · intro u hu
    rcases List.mem_cons.1 hu with hu | hu
    · cases hu
      exact Or.inr ⟨job, hjob, hlayer⟩
    · exact Or.inl hu

/-- A run that leaves a frame which counts it is counted once less. -/
theorem runStep_leave
    (e : Executor)
    {r : RunId}
    {run : Run}
    {t : TrackerId}
    {frames : List Frame}
    {c : Control}
    (lasts : run.isOver = false)
    (lasts' : { run with stack := frames, control := c }.isOver = false)
    (hstack : run.stack = .track t :: frames) :
    e.RunStep ((e.leave t).resume r run frames c) r run
      { run with stack := frames, control := c } := by
  obtain ⟨journal, h⟩ := e.leave_eq t
  refine ⟨lasts, rfl, rfl, by rw [h]; rfl, by rw [h]; rfl, by rw [h]; rfl, ?_, ?_,
    by rw [h]; rfl, by rw [h]; rfl, by rw [h]; exact .of_eq rfl, ?_⟩
  · rw [h]
    exact List.length_modify ..
  · intro u _
    have hcount := e.inFlight_leave t u
    show (e.leave t).inFlight u = _
    rw [hcount]
    simp only [Run.load, lasts, lasts', hstack, List.count_cons]
    by_cases htu : t = u
    · subst htu
      simp
      omega
    · have : ¬ Frame.track t = .track u := by simpa using htu
      simp [htu, this]
  · intro u hu
    rw [hstack]
    exact Or.inl (List.mem_cons_of_mem _ hu)

/-- A run that is over is counted no longer. -/
theorem runStep_finishRun
    (e : Executor)
    {r : RunId}
    {run : Run}
    {c : Control}
    (lasts : run.isOver = false)
    (hover : { run with control := c }.isOver = true) :
    e.RunStep (e.finishRun r run c) r run
      { run with control := c, finished := some e.now } := by
  have hover' : { run with control := c, finished := some e.now }.isOver = true := hover
  rcases Option.eq_none_or_eq_some run.counted with hc | ⟨t, hc⟩
  · have hfinish : e.finishRun r run c =
        e.setRun r { run with control := c, finished := some e.now } := by
      simp only [finishRun, hc]
    rw [hfinish]
    refine ⟨lasts, rfl, rfl, rfl, rfl, rfl, rfl, ?_, rfl, rfl, .of_eq rfl, fun _ => Or.inl⟩
    intro u _
    simp only [Run.load, hc]
    show e.inFlight u = _
    simp
  · obtain ⟨journal, h⟩ := e.leave_eq t
    have hnow : (e.leave t).now = e.now := by rw [h]
    have hfinish : e.finishRun r run c =
        (e.leave t).setRun r { run with control := c, finished := some e.now } := by
      simp only [finishRun, hc, hnow]
    rw [hfinish]
    refine ⟨lasts, rfl, rfl, by rw [h]; rfl, by rw [h]; rfl, by rw [h]; rfl, ?_, ?_,
      by rw [h]; rfl, by rw [h]; rfl, by rw [h]; exact .of_eq rfl, fun _ => Or.inl⟩
    · rw [h]
      exact List.length_modify ..
    · intro u _
      have hcount := e.inFlight_leave t u
      show (e.leave t).inFlight u = _
      rw [hcount]
      have hload : run.load u = run.stack.count (.track u) + if t = u then 1 else 0 := by
        simp [Run.load, hc, lasts]
      have hload' : { run with control := c, finished := some e.now }.load u =
          run.stack.count (.track u) := by
        simp [Run.load, hover']
      rw [hload, hload']
      omega

/-- A quiet move of a run that keeps its frames. -/
theorem runStep_control
    {e e₁ : Executor}
    {run : Run}
    {c : Control}
    (r : RunId)
    (h : e.Quiet e₁)
    (lasts : run.isOver = false)
    (lasts' : { run with control := c }.isOver = false) :
    e.RunStep (e₁.control r run c) r run { run with control := c } :=
  runStep_of_quiet r h lasts lasts' fun _ => rfl

/-- A quiet move of a run into a frame that does not count it. -/
theorem runStep_push
    {e e₁ : Executor}
    {run : Run}
    {f : Frame}
    {ctx : Context}
    (r : RunId)
    (h : e.Quiet e₁)
    (lasts : run.isOver = false)
    (hf : ∀ t, f ≠ .track t) :
    e.RunStep (e₁.push r run f (.entering ctx)) r run
      { run with stack := f :: run.stack, control := .entering ctx } :=
  runStep_of_quiet r h lasts rfl fun t => List.count_cons_of_ne (hf t)

/-- A quiet move of a run out of a frame that does not count it. -/
theorem runStep_pop
    {e e₁ : Executor}
    {run : Run}
    {f : Frame}
    {frames : List Frame}
    {c : Control}
    (r : RunId)
    (h : e.Quiet e₁)
    (lasts : run.isOver = false)
    (lasts' : { run with stack := frames, control := c }.isOver = false)
    (hstack : run.stack = f :: frames)
    (hf : ∀ t, f ≠ .track t) :
    e.RunStep (e₁.resume r run frames c) r run
      { run with stack := frames, control := c } := by
  refine runStep_of_quiet r h lasts lasts' ?_
  intro t
  rw [hstack, List.count_cons_of_ne (hf t)]

theorem runStep_enterLayer
    (e : Executor)
    (r : RunId)
    {run : Run}
    (ctx : Context)
    {l : Layer}
    {job : Job}
    (lasts : run.isOver = false)
    (hjob : e.jobs[run.job]? = some job)
    (hlayer : job.layers[run.stack.length]? = some l) :
    ∃ run', e.RunStep (e.enterLayer r run ctx l) r run run' := by
  have hmodify : ∀ l' : Layer, (∀ t, l' ≠ .track t) →
      e.Quiet (e.modifyJob run.job (·.setLayer run.stack.length l')) :=
    fun l' hl' => e.quiet_modifyJob run.job fun job _ => Job.keeps_setLayer hl'
  cases l with
  | recover last => exact ⟨_, runStep_push r (.refl e) lasts (by simp)⟩
  | track t => exact ⟨_, e.runStep_enter lasts hjob (List.mem_of_getElem? hlayer)⟩
  | retry signal limit interval last =>
      exact ⟨_, runStep_push r (.refl e) lasts (by simp)⟩
  | skip inProgress =>
      cases inProgress with
      | true =>
          exact ⟨_, runStep_control r ((e.quiet_note _).trans (quiet_logRun _ _ _ _ _ _))
            lasts rfl⟩
      | false => exact ⟨_, runStep_push r (hmodify _ (by simp)) lasts (by simp)⟩
  | delay lock =>
      rcases Option.eq_none_or_eq_some lock.holder with hholder | ⟨holder, hholder⟩
      · simp only [enterLayer, hholder]
        exact ⟨_, runStep_push r (hmodify _ (by simp)) lasts (by simp)⟩
      · simp only [enterLayer, hholder]
        exact ⟨_, runStep_control r (.refl e) lasts rfl⟩
  | trace tracer =>
      exact ⟨_, runStep_push r (e.quiet_openSpan _ _ _ _) lasts (by simp)⟩
  | tag name =>
      exact ⟨_, runStep_push r ⟨rfl, rfl, rfl, rfl, rfl, rfl, .of_eq rfl⟩ lasts (by simp)⟩

theorem runStep_joinQueue
    (e : Executor)
    (r : RunId)
    {run : Run}
    (ctx : Context)
    (lock : Lock)
    (lasts : run.isOver = false) :
    ∃ run', e.RunStep (e.joinQueue r run ctx lock) r run run' := by
  have hset : ∀ lock : Lock,
      e.Quiet (e.modifyJob run.job (·.setLayer run.stack.length (.delay lock))) :=
    fun lock => e.quiet_modifyJob run.job fun job _ => Job.keeps_setLayer (by simp)
  unfold joinQueue
  cases lock.holder with
  | none =>
      exact ⟨_, runStep_push r ((hset _).trans (quiet_logRun _ _ _ _ _ _)) lasts (by simp)⟩
  | some holder => exact ⟨_, runStep_control r (hset _) lasts rfl⟩

theorem runStep_callTask
    (e : Executor)
    (r : RunId)
    {run : Run}
    (ctx : Context)
    {job : Job}
    (lasts : run.isOver = false)
    (hjob : e.jobs[run.job]? = some job) :
    ∃ run', e.RunStep (e.callTask r run ctx job.task) r run run' := by
  have hcounted : e.Quiet (e.modifyJob run.job fun j =>
      { j with task := { job.task with calls := job.task.calls + 1 } }) := by
    refine e.quiet_modifyJob run.job ?_
    intro j hj
    rw [hjob] at hj
    cases hj
    exact ⟨rfl, fun _ h => h⟩
  simp only [callTask, beginCall]
  split
  · exact ⟨_, runStep_control r
      (hcounted.trans ⟨rfl, rfl, rfl, rfl, rfl, rfl, .of_eq rfl⟩) lasts rfl⟩
  · exact ⟨_, runStep_control r
      (hcounted.trans ⟨rfl, rfl, rfl, rfl, rfl, rfl, .of_eq rfl⟩) lasts rfl⟩

theorem runStep_endCall
    (e : Executor)
    (r : RunId)
    {run : Run}
    (a : Attempt)
    (call : Nat)
    (lasts : run.isOver = false) :
    ∃ run', e.RunStep (e.endCall r run a call) r run run' := by
  let e₁ : Executor :=
    { e with calls := e.calls.modify call fun c => { c with finished := some e.now } }
  have hcalls : e.Quiet e₁ := ⟨rfl, rfl, rfl, rfl, rfl, rfl, .of_eq rfl⟩
  have hkeep : ∀ o : Outcome, e.Quiet (e₁.modifyJob run.job fun job =>
      { job with task := { job.task with last := some o } }) :=
    fun o => hcalls.trans (e₁.quiet_modifyJob run.job fun job _ => ⟨rfl, fun _ h => h⟩)
  unfold endCall
  cases a.ending with
  | succeed => exact ⟨_, runStep_control r (hkeep _) lasts rfl⟩
  | fail message => exact ⟨_, runStep_control r (hkeep _) lasts rfl⟩
  | panic payload => exact ⟨_, runStep_control r hcalls lasts rfl⟩

theorem runStep_attemptEnded
    (e : Executor)
    (r : RunId)
    {run : Run}
    {frames : List Frame}
    {shutdown : TokenId}
    {ctx : Context}
    {repeated : Nat}
    {due : Option Nat}
    (o : Outcome)
    (lasts : run.isOver = false)
    (hstack : run.stack = .retry shutdown ctx repeated due :: frames) :
    ∃ run', e.RunStep (e.attemptEnded r run frames shutdown ctx repeated due o) r run run' := by
  simp only [attemptEnded]
  split
  · exact ⟨_, runStep_pop r (.refl e) lasts rfl hstack (by simp)⟩
  · exact ⟨_, runStep_pop r (e.quiet_keepLast _ _ _) lasts rfl hstack (by simp)⟩
  · split
    · exact ⟨_, runStep_pop r ((e.quiet_logRun _ _ _ _ _).trans (quiet_keepLast _ _ _ _))
        lasts rfl hstack (by simp)⟩
    · refine ⟨_, runStep_of_quiet r (.refl e) lasts rfl ?_⟩
      intro t
      rw [hstack, List.count_cons_of_ne (by simp), List.count_cons_of_ne (by simp)]

theorem runStep_leaveFrame
    (e : Executor)
    (r : RunId)
    {run : Run}
    {f : Frame}
    {frames : List Frame}
    (o : Outcome)
    (lasts : run.isOver = false)
    (hstack : run.stack = f :: frames) :
    ∃ run', e.RunStep (e.leaveFrame r run f frames o) r run run' := by
  cases f with
  | recover =>
      exact ⟨_, runStep_pop r (e.quiet_noteEnd _ _ _) lasts rfl hstack (by simp)⟩
  | track t => exact ⟨_, e.runStep_leave lasts rfl hstack⟩
  | retry shutdown ctx repeated due => exact e.runStep_attemptEnded r o lasts hstack
  | skip => exact ⟨_, runStep_pop r (e.quiet_release _ _ (by simp)) lasts rfl hstack (by simp)⟩
  | delay => exact ⟨_, runStep_pop r (e.quiet_release _ _ (by simp)) lasts rfl hstack (by simp)⟩
  | trace span =>
      cases o with
      | ok => exact ⟨_, runStep_pop r (e.quiet_finishSpan _) lasts rfl hstack (by simp)⟩
      | err failure =>
          exact ⟨_, runStep_pop r ((e.quiet_attachFailure _ _).trans (quiet_finishSpan _ _))
            lasts rfl hstack (by simp)⟩
  | tag name =>
      exact ⟨_, runStep_pop r ⟨rfl, rfl, rfl, rfl, rfl, rfl, .of_eq rfl⟩ lasts rfl hstack
        (by simp)⟩

/-- Unwinding leaves the frames that count the run in the same way. -/
theorem runStep_unwindFrame
    (e : Executor)
    (r : RunId)
    {run : Run}
    {f : Frame}
    {frames : List Frame}
    (p : Payload)
    (lasts : run.isOver = false)
    (hstack : run.stack = f :: frames) :
    ∃ run', e.RunStep (e.unwindFrame r run f frames p) r run run' := by
  cases f with
  | recover =>
      exact ⟨_, runStep_pop r
        (((e.quiet_note _).trans (quiet_logRun _ _ _ _ _ _)).trans (quiet_noteEnd _ _ _ _))
        lasts rfl hstack (by simp)⟩
  | track t => exact ⟨_, e.runStep_leave lasts rfl hstack⟩
  | retry | skip | delay | trace | tag =>
      exact ⟨_, runStep_pop r (e.quiet_release _ _ (by simp)) lasts rfl hstack (by simp)⟩

theorem runStep_of_mem_pauseMoves
    {e e' : Executor}
    {r : RunId}
    {run : Run}
    {f : JobFailure}
    (lasts : run.isOver = false)
    (h : e' ∈ e.pauseMoves r run f) :
    ∃ run', e.RunStep e' r run run' := by
  unfold pauseMoves at h
  split at h
  · rename_i shutdown ctx repeated due frames hstack
    have hstop : ∀ reason,
        e.RunStep (e.stopRepeating r run frames repeated f reason) r run
          { run with stack := frames, control := .leaving (.err f) } := fun reason =>
      runStep_pop r ((e.quiet_logRun _ _ _ _ _).trans (quiet_keepLast _ _ _ _)) lasts rfl
        hstack (by simp)
    rw [List.mem_append, List.mem_append] at h
    rcases h with (h | h) | h
    · obtain ⟨-, rfl⟩ := mem_guarded_iff.1 h
      refine ⟨_, runStep_of_quiet r
        ((e.quiet_note _).trans (quiet_logRun _ _ _ _ _ _)) lasts rfl ?_⟩
      intro t
      rw [hstack, List.count_cons_of_ne (by simp), List.count_cons_of_ne (by simp)]
    · obtain ⟨-, rfl⟩ := mem_guarded_iff.1 h
      exact ⟨_, hstop _⟩
    · obtain ⟨-, rfl⟩ := mem_guarded_iff.1 h
      exact ⟨_, hstop _⟩
  · simp at h

/-- **A move of a run changes the counts of the trackers as it changes the load of the run.** -/
theorem runStep_of_mem_runMoves
    {e e' : Executor}
    {r : RunId}
    (h : e' ∈ e.runMoves r) :
    ∃ run run', e.runs[r]? = some run ∧ e.RunStep e' r run run' := by
  unfold runMoves at h
  cases hrun : e.runs[r]? with
  | none => simp [hrun] at h
  | some run =>
      simp only [hrun] at h
      refine ⟨run, ?_⟩
      suffices hstep : ∃ run', e.RunStep e' r run run' by
        obtain ⟨run', hrun'⟩ := hstep
        exact ⟨run', rfl, hrun'⟩
      have lasts : ∀ c, run.control = c → Run.isOver { run with control := c } = false →
          run.isOver = false := by
        rintro c rfl hc
        exact hc
      split at h
      · rename_i ctx hc
        have hlasts := lasts _ hc rfl
        split at h
        · simp at h
        · rename_i job hjob
          split at h
          · rename_i l hlayer
            obtain rfl := List.mem_singleton.1 h
            exact e.runStep_enterLayer r ctx hlasts hjob hlayer
          · obtain rfl := List.mem_singleton.1 h
            exact e.runStep_callTask r ctx hlasts hjob
      · rename_i ctx hc
        unfold joinMoves at h
        split at h
        · obtain rfl := List.mem_singleton.1 h
          exact e.runStep_joinQueue r ctx _ (lasts _ hc rfl)
        · simp at h
      · rename_i ctx hc
        obtain ⟨-, rfl⟩ := mem_guarded_iff.1 h
        exact ⟨_, runStep_push r (e.quiet_logRun _ _ _ _ _) (lasts _ hc rfl) (by simp)⟩
      · rename_i wake a call ctx hc
        obtain ⟨-, rfl⟩ := mem_guarded_iff.1 h
        exact ⟨_, runStep_control r (.refl e) (lasts _ hc rfl) rfl⟩
      · rename_i a call ctx hc
        obtain ⟨-, rfl⟩ := mem_guarded_iff.1 h
        exact ⟨_, runStep_control r (.refl e) (lasts _ hc rfl) rfl⟩
      · rename_i a call hc
        obtain rfl := List.mem_singleton.1 h
        exact e.runStep_endCall r a call (lasts _ hc rfl)
      · rename_i f hc
        exact runStep_of_mem_pauseMoves (lasts _ hc rfl) h
      · rename_i o hc
        split at h
        · rename_i f frames hstack
          obtain rfl := List.mem_singleton.1 h
          exact e.runStep_leaveFrame r o (lasts _ hc rfl) hstack
        · obtain rfl := List.mem_singleton.1 h
          exact ⟨_, e.runStep_finishRun (lasts _ hc rfl) rfl⟩
      · rename_i p hc
        split at h
        · rename_i f frames hstack
          obtain rfl := List.mem_singleton.1 h
          exact e.runStep_unwindFrame r p (lasts _ hc rfl) hstack
        · obtain rfl := List.mem_singleton.1 h
          exact ⟨_, e.runStep_finishRun (lasts _ hc rfl) rfl⟩
      all_goals simp at h

/-- One move of a timer: it changes its own entry; it may count an activation, if the engine
runs, or start the run of one that has been counted. -/
inductive TimerStep
    (e e' : Executor)
    (n : Nat)
    (t t' : Timer) : Prop where
  | quiet
      (h : Quiet { e with timers := e.timers.set n t' } e')
      (phase : t.isCounted = false)
      (phase' : t'.isCounted = false)
  | count
      (running : e.running = true)
      (h : e' = (e.enter e.dispatched).setTimer n t')
      (phase : t.isCounted = false)
      (phase' : t'.isCounted = true)
  | activate
      (metric : Metric)
      (ctx : Context)
      (h : e' = ((e.count metric).setTimer n t').spawn t.job ctx (some e.dispatched))
      (phase : t.isCounted = true)
      (phase' : t'.isCounted = false)

/-- A move of a timer that sets its entry and nothing else that counts. -/
theorem timerStep_of_quiet
    {e e₁ : Executor}
    {n : Nat}
    {t t' : Timer}
    (h : e.Quiet e₁)
    (keeps : t.Keeps t')
    (phase : t.isCounted = false)
    (phase' : t'.isCounted = false) :
    ∃ t'', t.Keeps t'' ∧ e.TimerStep (e₁.setTimer n t') n t t'' := by
  refine ⟨t', keeps, .quiet ⟨h.runs, ?_, h.waiters, h.trackers, h.running, h.dispatched, ?_⟩
    phase phase'⟩
  · show e₁.timers.set n t' = e.timers.set n t'
    rw [h.timers]
  · exact ⟨h.jobs.length, h.jobs.keeps⟩

/-- **A move of a timer counts an activation, starts the run of one that has been counted, or
changes no count.** -/
theorem timerStep_of_mem_timerMoves
    {e e' : Executor}
    {n : Nat}
    (h : e' ∈ e.timerMoves n) :
    ∃ t t', e.timers[n]? = some t ∧ t.Keeps t' ∧ e.TimerStep e' n t t' := by
  unfold timerMoves at h
  cases ht : e.timers[n]? with
  | none => simp [ht] at h
  | some t =>
      simp only [ht] at h
      refine ⟨t, ?_⟩
      suffices hstep : ∃ t', t.Keeps t' ∧ e.TimerStep e' n t t' by
        obtain ⟨t', hkeeps, hstep⟩ := hstep
        exact ⟨t', rfl, hkeeps, hstep⟩
      have hclosed : t.Keeps { t with closed := true, phase := .finished } :=
        ⟨rfl, fun _ => rfl⟩
      have hfinish : t.isCounted = false → ∃ t', t.Keeps t' ∧
          e.TimerStep (e.finishTimer n t) n t t' := fun hphase =>
        timerStep_of_quiet (.refl e) hclosed hphase rfl
      split at h
      · simp at h
      · rename_i hphase
        have hcounted : t.isCounted = false := by simp [Timer.isCounted, hphase]
        obtain rfl := List.mem_singleton.1 h
        exact timerStep_of_quiet (.refl e) ⟨rfl, id⟩ hcounted rfl
      · rename_i hphase
        have hcounted : t.isCounted = false := by simp [Timer.isCounted, hphase]
        obtain rfl := List.mem_singleton.1 h
        exact timerStep_of_quiet (.refl e) ⟨rfl, id⟩ hcounted rfl
      · rename_i paused hphase
        have hcounted : t.isCounted = false := by simp [Timer.isCounted, hphase]
        split at h
        · obtain rfl := List.mem_singleton.1 h
          exact hfinish hcounted
        · obtain ⟨-, rfl⟩ := mem_guarded_iff.1 h
          exact timerStep_of_quiet (.refl e) ⟨rfl, id⟩ hcounted rfl
      · rename_i hphase
        have hcounted : t.isCounted = false := by simp [Timer.isCounted, hphase]
        obtain rfl := List.mem_singleton.1 h
        simp only [askTimer]
        split
        · exact timerStep_of_quiet (e.quiet_noteAll _) ⟨rfl, id⟩ hcounted rfl
        · exact timerStep_of_quiet ((e.quiet_noteAll _).trans (quiet_note _ _))
            ⟨rfl, fun _ => rfl⟩ hcounted rfl
        · exact timerStep_of_quiet (e.quiet_noteAll _) ⟨rfl, id⟩ hcounted rfl
      · rename_i i due hphase
        have hcounted : t.isCounted = false := by simp [Timer.isCounted, hphase]
        rw [armedMoves, List.mem_append] at h
        rcases h with h | h
        · obtain ⟨-, rfl⟩ := mem_guarded_iff.1 h
          exact hfinish hcounted
        · obtain ⟨-, rfl⟩ := mem_guarded_iff.1 h
          exact timerStep_of_quiet (.refl e) ⟨rfl, id⟩ hcounted rfl
      · rename_i i hphase
        have hcounted : t.isCounted = false := by simp [Timer.isCounted, hphase]
        obtain rfl := List.mem_singleton.1 h
        simp only [checkTimer]
        split
        · rename_i hrunning
          exact ⟨{ t with previous := i, phase := .counted i }, ⟨rfl, id⟩,
            .count hrunning rfl hcounted rfl⟩
        · exact timerStep_of_quiet (.refl e) ⟨rfl, id⟩ hcounted rfl
      · rename_i i hphase
        obtain rfl := List.mem_singleton.1 h
        exact ⟨{ t with phase := .resting }, ⟨rfl, id⟩,
          .activate _ _ rfl (by simp [Timer.isCounted, hphase]) rfl⟩
      · simp at h

/-- One move of somebody who waits: past a tracker that counts no run, or to the end. -/
inductive WaiterStep
    (e e' : Executor)
    (n : Nat)
    (w w' : Waiter) : Prop where
  | pass
      (t : TrackerId)
      (ts : List TrackerId)
      (h : Quiet { e with waiters := e.waiters.set n w' } e')
      (trackers : w.trackers = t :: ts)
      (trackers' : w'.trackers = ts)
      (idle : e.inFlight t = 0)
      (finished' : w'.finished = none)
  | finish
      (h : Quiet { e with waiters := e.waiters.set n w' } e')
      (trackers : w.trackers = [])
      (trackers' : w'.trackers = [])

/-- **Somebody who waits goes past a tracker only if it counts no run.** -/
theorem waiterStep_of_mem_waiterMoves
    {e e' : Executor}
    {n : Nat}
    (h : e' ∈ e.waiterMoves n) :
    ∃ w w', e.waiters[n]? = some w ∧ w.finished = none ∧ e.WaiterStep e' n w w' := by
  unfold waiterMoves at h
  cases hw : e.waiters[n]? with
  | none => simp [hw] at h
  | some w =>
      simp only [hw] at h
      split at h
      · simp at h
      · rename_i t ts hfinished htrackers
        obtain ⟨hidle, rfl⟩ := mem_guarded_iff.1 h
        exact ⟨w, { w with trackers := ts }, rfl, hfinished,
          .pass t ts (.refl _) htrackers rfl hidle hfinished⟩
      · rename_i hfinished htrackers
        obtain rfl := List.mem_singleton.1 h
        exact ⟨w, { w with finished := some e.now }, rfl, hfinished,
          .finish (quiet_noteAll _ _) htrackers htrackers⟩

end Executor
end Timetable
