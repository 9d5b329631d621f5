import Timetable.Proofs.Executor.Repeating

/-!
# Who writes about spans

A run opens a span when it goes into a layer that traces, and closes it when it hands an outcome
out of that layer.  No other move of a run touches the table of spans, or writes into the journal
about any span, and nobody who is not a run touches the table.  So a span that is on the stack of
a run is known, and a span that is opened is on no stack yet.

Main results:

* a move of a run opens a span, closes one, or leaves all spans alone (traces_of_mem_runMoves);
* so does whatever occurs (Occurs.tracing);
* the spans on the stacks are known (Path.acquainted), and none of them comes onto a stack again
  (Tracing.bears).
-/

namespace Timetable

/-- The span on which an event records something: a field, or a line as spans write it. -/
def Event.span? : Event → Option Nat
  | .spanRecorded n _ _ => some n
  | .spanFinished n => some n
  | .logged line => if line.message = "span log" then line.inside else none
  | _ => none

/-- The event neither opens a span nor records anything on one. -/
def Event.Plain (event : Event) : Prop :=
  event.opensSpan = false ∧ event.span? = none

/-- The journal after events has that many spans more as the events open. -/
theorem Journal.spanCount_noteAll
    (j : Journal)
    (events : List Event) :
    (j.noteAll events).spanCount = j.spanCount + events.countP Event.opensSpan := by
  induction events generalizing j with
  | nil => rfl
  | cons event events ih =>
      refine (ih (j.note event)).trans ?_
      simp only [note, spanCount, List.countP_cons]
      omega

namespace Executor

variable {e e' e₁ e₂ : Executor} {r : RunId} {run run' : Run} {job job' : Job}
  {signs : List Sign}

/-- The table of spans is as it has been, and the journal has at most grown. -/
structure Grows (e e₁ : Executor) : Prop where
  spans : e₁.spans = e.spans
  journal : ∃ events, e₁.journal = e.journal.noteAll events

/-- The table of spans is as it has been, and only plain events are new in the journal. -/
structure Untraced (e e₁ : Executor) : Prop where
  spans : e₁.spans = e.spans
  journal : ∃ events, e₁.journal = e.journal.noteAll events ∧ ∀ event ∈ events, event.Plain

/-- The events of a step are those with which the journal has grown. -/
theorem fresh_of_noteAll
    (events : List Event)
    (journal : e'.journal = e.journal.noteAll events) :
    e.fresh e' = events := by
  rw [fresh, journal, Journal.events_noteAll, List.drop_left]

section Parts

theorem Untraced.grows (h : e.Untraced e₁) : e.Grows e₁ :=
  ⟨h.spans, h.journal.imp fun _ => And.left⟩

theorem untraced_of_eq
    (spans : e₁.spans = e.spans)
    (journal : e₁.journal = e.journal) :
    e.Untraced e₁ :=
  ⟨spans, [], journal, by simp⟩

theorem Untraced.refl (e : Executor) : e.Untraced e :=
  untraced_of_eq rfl rfl

theorem Untraced.trans
    (h : e.Untraced e₁)
    (h' : e₁.Untraced e₂) :
    e.Untraced e₂ := by
  obtain ⟨events, hevents, hplain⟩ := h.journal
  obtain ⟨events', hevents', hplain'⟩ := h'.journal
  refine ⟨h'.spans.trans h.spans, events ++ events', ?_, ?_⟩
  · rw [hevents', hevents]
    exact (List.foldl_append ..).symm
  · intro event hevent
    exact (List.mem_append.1 hevent).elim (hplain event) (hplain' event)

theorem untraced_note
    (e : Executor)
    {event : Event}
    (plain : event.Plain) :
    e.Untraced (e.note event) :=
  ⟨rfl, [event], rfl, by simpa using plain⟩

theorem untraced_count
    (e : Executor)
    (m : Metric) :
    e.Untraced (e.count m) :=
  e.untraced_note ⟨rfl, rfl⟩

/-- A line about a run is not as spans write it. -/
theorem untraced_logRun
    (e : Executor)
    (run : Run)
    (frames : List Frame)
    (level : Level)
    (message : String)
    (own : message ≠ "span log")
    (fields : List (String × String)) :
    e.Untraced (e.logRun run frames level message fields) :=
  e.untraced_note ⟨rfl, if_neg own⟩

theorem untraced_setTracker
    (e : Executor)
    (t : TrackerId)
    (tracker : Tracker) :
    e.Untraced (e.setTracker t tracker) := by
  refine ⟨rfl, tracker.gauge, rfl, fun event hevent => ?_⟩
  unfold Tracker.gauge at hevent
  split at hevent
  · rw [List.mem_singleton.1 hevent]
    exact ⟨rfl, rfl⟩
  · cases hevent

theorem untraced_enter
    (e : Executor)
    (t : TrackerId) :
    e.Untraced (e.enter t) := by
  unfold enter
  split
  · exact e.untraced_setTracker t _
  · exact .refl e

theorem untraced_leave
    (e : Executor)
    (t : TrackerId) :
    e.Untraced (e.leave t) := by
  unfold leave
  split
  · exact e.untraced_setTracker t _
  · exact .refl e

theorem untraced_release
    (e : Executor)
    (run : Run)
    (depth : Nat)
    (f : Frame) :
    e.Untraced (e.release run depth f) := by
  cases f with
  | track t => exact e.untraced_leave t
  | skip => exact untraced_of_eq rfl rfl
  | delay =>
      simp only [release]
      split
      · exact untraced_of_eq rfl rfl
      · exact .refl e
  | recover | retry | trace | tag => exact .refl e

theorem untraced_keepLast
    (e : Executor)
    (run : Run)
    (depth : Nat)
    (o : Outcome) :
    e.Untraced (e.keepLast run depth o) :=
  untraced_of_eq rfl rfl

theorem untraced_noteEnd
    (e : Executor)
    (run : Run)
    (frames : List Frame)
    (o : Outcome) :
    e.Untraced (e.noteEnd run frames o) := by
  have hcount := e.untraced_count (.runDurations (e.jobKey run.job))
  unfold noteEnd
  refine Untraced.trans ?_ (untraced_keepLast _ _ _ _)
  cases o with
  | ok => exact hcount
  | err f =>
      obtain ⟨message, kind⟩ := f
      cases kind with
      | panicked => exact hcount
      | failed =>
          exact (hcount.trans (untraced_count _ _)).trans
            (untraced_logRun _ _ _ _ "Job run failed" (by decide) _)

theorem untraced_releaseAll
    (e : Executor)
    (run : Run)
    (frames : List Frame) :
    e.Untraced (e.releaseAll run frames) := by
  induction frames generalizing e with
  | nil => exact .refl e
  | cons f frames ih => exact (e.untraced_release run frames.length f).trans (ih _)

theorem untraced_dropRun
    (e : Executor)
    (r : RunId) :
    e.Untraced (e.dropRun r) := by
  unfold dropRun
  split
  · exact .refl e
  · rename_i run entry
    split
    · exact .refl e
    · have hqueue : e.Untraced (e.leaveQueue r run) := by
        unfold leaveQueue
        split
        · exact untraced_of_eq rfl rfl
        · exact .refl e
      have hreleased := hqueue.trans (untraced_releaseAll _ run run.stack)
      dsimp only
      split
      · exact (hreleased.trans (untraced_leave _ _)).trans (untraced_of_eq rfl rfl)
      · exact hreleased.trans (untraced_of_eq rfl rfl)

end Parts

/-- What a move of a run does to spans: it opens one, closes one, or leaves all of them alone. -/
inductive Traces
    (e e' : Executor)
    (r : RunId)
    (run : Run)
    (job : Job) :
    Prop
  | opens
      {ctx : Context}
      {tracer : Tracer}
      (control : run.control = .entering ctx)
      (layer : job.layers[run.stack.length]? = some (.trace tracer))
      (same : e' = e.enterLayer r run ctx (.trace tracer))
  | closes
      {o : Outcome}
      {span : SpanRef}
      {frames : List Frame}
      (control : run.control = .leaving o)
      (stack : run.stack = .trace span :: frames)
      (same : e' = e.leaveFrame r run (.trace span) frames o)
  | aside
      (untraced : e.Untraced e')
      (opensNone : ∀ ctx tracer, run.control = .entering ctx →
        job.layers[run.stack.length]? ≠ some (.trace tracer))
      (closesNone : ∀ o span frames, run.control = .leaving o →
        run.stack ≠ .trace span :: frames)

section Moves

theorem traces_enterLayer
    {ctx : Context}
    {l : Layer}
    (control : run.control = .entering ctx)
    (layer : job.layers[run.stack.length]? = some l) :
    e.Traces (e.enterLayer r run ctx l) r run job := by
  have haside : e.Untraced (e.enterLayer r run ctx l) → (∀ tracer, l ≠ .trace tracer) →
      e.Traces (e.enterLayer r run ctx l) r run job := by
    intro huntraced hother
    refine .aside huntraced (fun _ tracer _ htrace => ?_) (by simp [control])
    exact hother tracer (Option.some.inj (layer.symm.trans htrace))
  cases l with
  | trace tracer => exact .opens control layer rfl
  | recover | retry | tag => exact haside (untraced_of_eq rfl rfl) (by simp)
  | track t => exact haside ((e.untraced_enter t).trans (untraced_of_eq rfl rfl)) (by simp)
  | skip inProgress =>
      refine haside ?_ (by simp)
      cases inProgress with
      | true =>
          have hcount := e.untraced_count (.skips (e.jobKey run.job))
          exact (hcount.trans (untraced_logRun _ run run.stack .debug
            "Previous run still in progress, skipping" (by decide) [])).trans
              (untraced_of_eq rfl rfl)
      | false => exact untraced_of_eq rfl rfl
  | delay lock =>
      refine haside ?_ (by simp)
      rcases Option.eq_none_or_eq_some lock.holder with hholder | ⟨holder, hholder⟩ <;>
        · simp only [enterLayer, hholder]
          exact untraced_of_eq rfl rfl

theorem untraced_attemptEnded
    (e : Executor)
    (r : RunId)
    (run : Run)
    (frames : List Frame)
    (shutdown : TokenId)
    (ctx : Context)
    (repeated : Nat)
    (due : Option Nat)
    (o : Outcome) :
    e.Untraced (e.attemptEnded r run frames shutdown ctx repeated due o) := by
  simp only [attemptEnded]
  split
  · exact untraced_of_eq rfl rfl
  · exact untraced_of_eq rfl rfl
  · split
    · exact (e.untraced_logRun run frames .warn "Retries exhausted" (by decide) _).trans
        (untraced_of_eq rfl rfl)
    · exact untraced_of_eq rfl rfl

theorem traces_leaveFrame
    {o : Outcome}
    {f : Frame}
    {frames : List Frame}
    (control : run.control = .leaving o)
    (stack : run.stack = f :: frames) :
    e.Traces (e.leaveFrame r run f frames o) r run job := by
  have haside : e.Untraced (e.leaveFrame r run f frames o) → (∀ span, f ≠ .trace span) →
      e.Traces (e.leaveFrame r run f frames o) r run job := by
    intro huntraced hother
    refine .aside huntraced (by simp [control]) fun _ span _ _ htrace => ?_
    exact hother span (List.cons.inj (stack.symm.trans htrace)).1
  cases f with
  | trace span => exact .closes control stack rfl
  | recover =>
      exact haside ((e.untraced_noteEnd run frames o).trans (untraced_of_eq rfl rfl)) (by simp)
  | retry => exact haside (e.untraced_attemptEnded _ _ _ _ _ _ _ _) (by simp)
  | tag => exact haside (untraced_of_eq rfl rfl) (by simp)
  | track | skip | delay =>
      exact haside ((e.untraced_release run frames.length _).trans (untraced_of_eq rfl rfl))
        (by simp)

theorem untraced_unwindFrame
    (e : Executor)
    (r : RunId)
    (run : Run)
    (f : Frame)
    (frames : List Frame)
    (p : Payload) :
    e.Untraced (e.unwindFrame r run f frames p) := by
  cases f with
  | recover =>
      have hlogged := (e.untraced_count (.panics (e.jobKey run.job))).trans
        (untraced_logRun _ run frames .error "Job panicked" (by decide) [("panic", p.message)])
      exact (hlogged.trans (untraced_noteEnd _ run frames (.err (.panicked p.message)))).trans
        (untraced_of_eq rfl rfl)
  | track | retry | skip | delay | trace | tag =>
      exact (e.untraced_release run frames.length _).trans (untraced_of_eq rfl rfl)

theorem untraced_finishRun
    (e : Executor)
    (r : RunId)
    (run : Run)
    (c : Control) :
    e.Untraced (e.finishRun r run c) := by
  unfold finishRun
  dsimp only
  split
  · exact (e.untraced_leave _).trans (untraced_of_eq rfl rfl)
  · exact untraced_of_eq rfl rfl

theorem untraced_of_mem_pauseMoves
    {f : JobFailure}
    (h : e' ∈ e.pauseMoves r run f) :
    e.Untraced e' := by
  have hstop : ∀ frames repeated reason, "Retry cancelled by " ++ reason ≠ "span log" →
      e.Untraced (e.stopRepeating r run frames repeated f reason) :=
    fun frames repeated reason own =>
    (e.untraced_logRun run frames .debug _ own _).trans (untraced_of_eq rfl rfl)
  unfold pauseMoves at h
  split at h
  · rw [List.mem_append, List.mem_append] at h
    rcases h with (h | h) | h <;> obtain ⟨-, rfl⟩ := mem_guarded_iff.1 h
    · exact ((e.untraced_count (.retries (e.jobKey run.job))).trans
        (untraced_logRun _ run _ .debug "Retrying job" (by decide) _)).trans
          (untraced_of_eq rfl rfl)
    · exact hstop _ _ _ (by decide)
    · exact hstop _ _ _ (by decide)
  · cases h

theorem untraced_goIn
    (e : Executor)
    (r : RunId)
    (run : Run)
    (ctx : Context) :
    e.Untraced (e.goIn r run ctx) :=
  (e.untraced_logRun run run.stack .debug "Delayed until previous run finished" (by decide)
    []).trans (untraced_of_eq rfl rfl)

theorem untraced_of_mem_joinMoves
    {ctx : Context}
    (h : e' ∈ e.joinMoves r run ctx) :
    e.Untraced e' := by
  unfold joinMoves at h
  split at h
  · obtain rfl := List.mem_singleton.1 h
    unfold joinQueue
    dsimp only
    split
    · refine Untraced.trans ?_ (untraced_goIn _ r run ctx)
      exact untraced_of_eq rfl rfl
    · exact untraced_of_eq rfl rfl
  · cases h

/-- **A move of a run opens a span, closes one, or leaves all spans alone.** -/
theorem traces_of_mem_runMoves
    (entry : e.runs[r]? = some run)
    (decorated : e.jobs[run.job]? = some job)
    (h : e' ∈ e.runMoves r) :
    e.Traces e' r run job := by
  have haside : e.Untraced e' → (∀ ctx, run.control ≠ .entering ctx) →
      (∀ o, run.control ≠ .leaving o) → e.Traces e' r run job := fun huntraced hentering hleaving =>
    .aside huntraced (fun ctx _ hctx => absurd hctx (hentering ctx))
      fun o _ _ ho => absurd ho (hleaving o)
  simp only [runMoves, entry, decorated] at h
  split at h
  · rename_i ctx control
    split at h
    · rename_i l layer
      obtain rfl := List.mem_singleton.1 h
      exact traces_enterLayer control layer
    · rename_i innermost
      obtain rfl := List.mem_singleton.1 h
      refine .aside ?_ (by simp [innermost]) (by simp [control])
      unfold callTask beginCall
      dsimp only
      split <;> exact untraced_of_eq rfl rfl
  · rename_i ctx control
    exact haside (untraced_of_mem_joinMoves h) (by simp [control]) (by simp [control])
  · rename_i ctx control
    obtain ⟨-, rfl⟩ := mem_guarded_iff.1 h
    exact haside (e.untraced_goIn r run ctx) (by simp [control]) (by simp [control])
  · rename_i wake a call ctx control
    obtain ⟨-, rfl⟩ := mem_guarded_iff.1 h
    exact haside (untraced_of_eq rfl rfl) (by simp [control]) (by simp [control])
  · rename_i a call ctx control
    obtain ⟨-, rfl⟩ := mem_guarded_iff.1 h
    exact haside (untraced_of_eq rfl rfl) (by simp [control]) (by simp [control])
  · rename_i a call control
    obtain rfl := List.mem_singleton.1 h
    refine haside ?_ (by simp [control]) (by simp [control])
    unfold endCall
    dsimp only
    split <;> exact untraced_of_eq rfl rfl
  · rename_i f control
    exact haside (untraced_of_mem_pauseMoves h) (by simp [control]) (by simp [control])
  · rename_i o control
    split at h
    · rename_i f frames stack
      obtain rfl := List.mem_singleton.1 h
      exact traces_leaveFrame control stack
    · rename_i stack
      obtain rfl := List.mem_singleton.1 h
      exact .aside (e.untraced_finishRun _ _ _) (by simp [control]) (by simp [stack])
  · rename_i p control
    split at h
    · rename_i f frames stack
      obtain rfl := List.mem_singleton.1 h
      exact haside (e.untraced_unwindFrame _ _ _ _ _) (by simp [control]) (by simp [control])
    · rename_i stack
      obtain rfl := List.mem_singleton.1 h
      exact haside (e.untraced_finishRun _ _ _) (by simp [control]) (by simp [control])
  all_goals cases h

end Moves

section Others

theorem grows_of_eq
    (spans : e₁.spans = e.spans)
    (journal : e₁.journal = e.journal) :
    e.Grows e₁ :=
  (untraced_of_eq spans journal).grows

theorem grows_noteAll
    (e : Executor)
    (events : List Event) :
    e.Grows (e.noteAll events) :=
  ⟨rfl, events, rfl⟩

theorem Grows.trans
    (h : e.Grows e₁)
    (h' : e₁.Grows e₂) :
    e.Grows e₂ := by
  obtain ⟨events, hevents⟩ := h.journal
  obtain ⟨events', hevents'⟩ := h'.journal
  refine ⟨h'.spans.trans h.spans, events ++ events', ?_⟩
  rw [hevents', hevents]
  exact (List.foldl_append ..).symm

theorem grows_askTimer
    (e : Executor)
    (n : Nat)
    (t : Timer) :
    e.Grows (e.askTimer n t) := by
  have hnoted := e.grows_noteAll (t.schedule.next t.previous).events
  cases hanswer : (t.schedule.next t.previous).answer with
  | error x =>
      simp only [askTimer, hanswer]
      exact hnoted.trans (grows_of_eq rfl rfl)
  | ok answer =>
      cases answer with
      | none =>
          simp only [askTimer, hanswer]
          exact hnoted.trans ⟨rfl, [_], rfl⟩
      | some i =>
          simp only [askTimer, hanswer]
          exact hnoted.trans (grows_of_eq rfl rfl)

theorem grows_of_mem_timerMoves
    {n : Nat}
    (h : e' ∈ e.timerMoves n) :
    e.Grows e' := by
  unfold timerMoves at h
  split at h
  · cases h
  · rename_i t _
    split at h
    · cases h
    · rw [List.mem_singleton.1 h]
      exact grows_of_eq rfl rfl
    · rw [List.mem_singleton.1 h]
      exact grows_of_eq rfl rfl
    · split at h
      · rw [List.mem_singleton.1 h]
        exact grows_of_eq rfl rfl
      · obtain ⟨-, rfl⟩ := mem_guarded_iff.1 h
        exact grows_of_eq rfl rfl
    · rw [List.mem_singleton.1 h]
      exact e.grows_askTimer n t
    · unfold armedMoves at h
      rcases List.mem_append.1 h with h | h <;> obtain ⟨-, rfl⟩ := mem_guarded_iff.1 h
      · exact grows_of_eq rfl rfl
      · exact grows_of_eq rfl rfl
    · rw [List.mem_singleton.1 h]
      unfold checkTimer
      split
      · exact (e.untraced_enter e.dispatched).grows.trans (grows_of_eq rfl rfl)
      · exact grows_of_eq rfl rfl
    · rw [List.mem_singleton.1 h]
      exact ⟨rfl, [_], rfl⟩
    · cases h

theorem grows_of_mem_waiterMoves
    {n : Nat}
    (h : e' ∈ e.waiterMoves n) :
    e.Grows e' := by
  unfold waiterMoves at h
  split at h
  · cases h
  · split at h
    · cases h
    · obtain ⟨-, rfl⟩ := mem_guarded_iff.1 h
      exact grows_of_eq rfl rfl
    · rw [List.mem_singleton.1 h]
      exact ⟨rfl, _, rfl⟩

/-- The table of spans stays, the journal at most grows, and no run changes, though some may be
new. -/
structure Onlooks (e e' : Executor) : Prop where
  grows : e.Grows e'
  runs : ∃ more, e'.runs = e.runs ++ more ∧ ∀ run ∈ more, run.stack = []

theorem Grows.onlooks
    (grows : e.Grows e')
    (runs : e'.runs = e.runs) :
    e.Onlooks e' :=
  ⟨grows, [], by rw [runs, List.append_nil], by simp⟩

/-- What befalls the executor is a move of a run, or lets all runs and spans be. -/
theorem Befalls.onlooks (h : e.Befalls e') : (∃ r, e' ∈ e.runMoves r) ∨ e.Onlooks e' := by
  have hquiet : e'.spans = e.spans → e'.journal = e.journal → e'.runs = e.runs →
      (∃ r, e' ∈ e.runMoves r) ∨ e.Onlooks e' :=
    fun hspans hjournal hruns => Or.inr ((grows_of_eq hspans hjournal).onlooks hruns)
  cases h with
  | cancel t => exact hquiet rfl rfl rfl
  | act h =>
      cases h with
      | startEngine => exact hquiet rfl rfl rfl
      | change h =>
          cases h with
          | drift h =>
              cases h with
              | move m h =>
                  cases m with
                  | run r => exact Or.inl ⟨r, h⟩
                  | timer n =>
                      obtain ⟨t, t', -, hdriven⟩ := driven_of_mem_timerMoves h
                      refine Or.inr ⟨grows_of_mem_timerMoves h, _, hdriven.runs, fun run hrun => ?_⟩
                      unfold launches at hrun
                      split at hrun
                      · rw [List.mem_singleton.1 hrun]
                        rfl
                      · cases hrun
                  | waiter n =>
                      exact Or.inr
                        ((grows_of_mem_waiterMoves h).onlooks (same_of_mem_waiterMoves h).1)
              | note event => exact Or.inr ((e.grows_noteAll [event]).onlooks rfl)
              | launch j ctx => exact Or.inr ⟨grows_of_eq rfl rfl, _, rfl, by simp⟩
              | exhaust | clock | line | wait => exact hquiet rfl rfl rfl
          | close n =>
              rcases e.close_eq n with hEq | ⟨s, hEq⟩ <;>
                · rw [hEq]
                  exact Or.inr (Grows.onlooks (grows_of_eq rfl rfl) rfl)
          | rearm s =>
              refine hquiet ?_ ?_ (e.quiet_rearm s).runs <;>
                · unfold rearm
                  split <;> rfl
          | giveUp | trigger | stopEngine | addJob | arm => exact hquiet rfl rfl rfl

end Others

/-- What occurs to runs and spans: a run moves, a run is dropped, or all runs and spans are let
be. -/
inductive Tracing (e e' : Executor) : Prop
  | moves
      {r : RunId}
      {run run' : Run}
      {job job' : Job}
      {signs : List Sign}
      (entry : e.runs[r]? = some run)
      (decorated : e.jobs[run.job]? = some job)
      (walked : e.Walked e' r run job run' job' signs)
      (traces : e.Traces e' r run job)
  | drops
      {r : RunId}
      {run : Run}
      (entry : e.runs[r]? = some run)
      (grows : e.Grows e')
      (runs : e'.runs = e.runs.set r { run with stack := [], control := .dropped })
  | onlooks (onlooks : e.Onlooks e')

/-- A move of a run is one of a run that has a job. -/
theorem tracing_of_mem_runMoves
    (rooted : e.Rooted)
    (h : e' ∈ e.runMoves r) :
    ∃ run run' job job' signs, e.runs[r]? = some run ∧ e.jobs[run.job]? = some job ∧
      e.Walked e' r run job run' job' signs ∧ e.Traces e' r run job := by
  obtain ⟨run, -, entry, -⟩ := runStep_of_mem_runMoves h
  cases decorated : e.jobs[run.job]? with
  | some job =>
      obtain ⟨run', job', signs, hwalked⟩ := walked_of_mem_runMoves entry decorated h
      exact ⟨run, run', job, job', signs, entry, decorated, hwalked,
        traces_of_mem_runMoves entry decorated h⟩
  | none =>
      have hunmoved := (rooted run (List.mem_of_getElem? entry)).resolve_left
        (Nat.not_lt.2 (List.getElem?_eq_none_iff.1 decorated))
      rw [runMoves_of_unmoved entry decorated hunmoved] at h
      cases h

/-- **Whatever occurs opens a span, closes one, or leaves all spans alone.** -/
theorem Occurs.tracing
    (occurs : e.Occurs e')
    (rooted : e.Rooted) :
    e.Tracing e' := by
  cases occurs with
  | befalls h =>
      rcases h.onlooks with ⟨r, hmove⟩ | honlooks
      · obtain ⟨_, _, _, _, _, entry, decorated, hwalked, htraces⟩ :=
          tracing_of_mem_runMoves rooted hmove
        exact .moves entry decorated hwalked htraces
      · exact .onlooks honlooks
  | @drop r run job entry decorated =>
      have hgrows := (e.untraced_dropRun r).grows
      rcases dropped_of_dropRun entry decorated with ⟨-, hsame⟩ | hdropped
      · exact .onlooks (hgrows.onlooks (by rw [hsame]))
      · exact .drops entry hgrows hdropped.runs

/-- **A run stays as it is, is dropped, or walks.** -/
theorem Tracing.becomes
    (tracing : e.Tracing e')
    (entry : e.runs[r]? = some run) :
    ∃ run', e'.runs[r]? = some run' ∧
      (run' = run ∨ run' = { run with stack := [], control := .dropped } ∨
        ∃ job job' signs, e.jobs[run.job]? = some job ∧ e.Walked e' r run job run' job' signs ∧
          e.Traces e' r run job) := by
  have hlt := (List.getElem?_eq_some_iff.1 entry).1
  cases tracing with
  | onlooks onlooks =>
      obtain ⟨more, hruns, -⟩ := onlooks.runs
      exact ⟨run, by rw [hruns, List.getElem?_append_left hlt, entry], Or.inl rfl⟩
  | @drops i moved hmoved grows runs =>
      rw [runs]
      by_cases hi : i = r
      · subst hi
        obtain rfl := Option.some.inj (entry.symm.trans hmoved)
        exact ⟨_, List.getElem?_set_self hlt, Or.inr (Or.inl rfl)⟩
      · exact ⟨run, by rw [List.getElem?_set_ne hi, entry], Or.inl rfl⟩
  | @moves i moved moved' job job' signs hmoved decorated walked traces =>
      by_cases hi : i = r
      · subst hi
        obtain rfl := Option.some.inj (entry.symm.trans hmoved)
        exact ⟨moved', walked.entry entry,
          Or.inr (Or.inr ⟨job, job', signs, decorated, walked, traces⟩)⟩
      · exact ⟨run, by rw [walked.runs, List.getElem?_set_ne hi, entry], Or.inl rfl⟩

section Bearers

variable {span : SpanRef} {k : Nat}

/-- A span has been opened. -/
def knows (e : Executor) : SpanRef → Prop
  | .recorded n => n < e.spans.length
  | .logged n => n ≤ e.journal.spanCount
  | .silent => True

/-- The span that a tracer opens next. -/
def nextSpan (e : Executor) : Tracer → SpanRef
  | .recording => .recorded e.spans.length
  | .logging => .logged (e.journal.spanCount + 1)
  | .silent => .silent

/-- A span that is opened has not been open yet. -/
theorem not_knows_nextSpan
    (e : Executor)
    {tracer : Tracer}
    (audible : tracer ≠ .silent) :
    ¬e.knows (e.nextSpan tracer) := by
  cases tracer with
  | recording => exact Nat.lt_irrefl _
  | logging => exact Nat.not_succ_le_self _
  | silent => exact absurd rfl audible

theorem Grows.knows
    (grows : e.Grows e')
    (known : e.knows span) :
    e'.knows span := by
  obtain ⟨events, hevents⟩ := grows.journal
  cases span with
  | recorded n => exact Nat.lt_of_lt_of_eq known (congrArg List.length grows.spans.symm)
  | logged n =>
      refine known.trans ?_
      rw [hevents, Journal.spanCount_noteAll]
      exact Nat.le_add_right _ _
  | silent => trivial

theorem knows_openSpan
    (e : Executor)
    (tracer : Tracer)
    (name : String)
    (parent : Option SpanRef)
    (tags : List (String × String)) :
    (e.openSpan tracer name parent tags).1.knows (e.nextSpan tracer) ∧
      ∀ span, e.knows span → (e.openSpan tracer name parent tags).1.knows span := by
  cases tracer with
  | recording =>
      refine ⟨by simp [openSpan, nextSpan, knows], fun span known => ?_⟩
      cases span with
      | recorded n => exact Nat.lt_of_lt_of_le known (by simp [openSpan])
      | logged | silent => exact known
  | logging =>
      refine ⟨?_, fun span => (e.grows_noteAll [_]).knows⟩
      have hcount := e.journal.spanCount_noteAll
        [.spanOpened (parent.bind SpanRef.logged?) name tags]
      exact hcount.ge
  | silent => exact ⟨trivial, fun _ => id⟩

/-- The way in which an outcome is written on a span and finishes it. -/
def closeSpan
    (e : Executor)
    (span : SpanRef) :
    Outcome → Executor
  | .ok => e.finishSpan span
  | .err f => (e.attachFailure span f).finishSpan span

theorem leaveFrame_trace
    (e : Executor)
    (r : RunId)
    (run : Run)
    (span : SpanRef)
    (frames : List Frame)
    (o : Outcome) :
    e.leaveFrame r run (.trace span) frames o =
      (e.closeSpan span o).resume r run frames (.leaving o) := by
  cases o <;> rfl

theorem knows_closeSpan
    (o : Outcome)
    {span' : SpanRef}
    (known : e.knows span) :
    (e.closeSpan span' o).knows span := by
  have hfinished : ∀ {e₁ : Executor}, e₁.knows span → (e₁.finishSpan span').knows span := by
    intro e₁ known
    cases span' with
    | recorded n =>
        cases span with
        | recorded m => exact Nat.lt_of_lt_of_eq known (List.length_modify ..).symm
        | logged | silent => exact known
    | logged n => exact (e₁.grows_noteAll [_]).knows known
    | silent => exact known
  cases o with
  | ok => exact hfinished known
  | err f =>
      refine hfinished ?_
      cases span' with
      | recorded n =>
          cases span with
          | recorded m => exact Nat.lt_of_lt_of_eq known (List.length_modify ..).symm
          | logged | silent => exact known
      | logged n => exact (e.grows_noteAll [_, _]).knows known
      | silent => exact known

/-- A run that goes into a layer that traces has the span that is opened on its stack, and in its
context. -/
theorem runs_enterLayer_trace
    (e : Executor)
    (r : RunId)
    (run : Run)
    (ctx : Context)
    (tracer : Tracer) :
    (e.enterLayer r run ctx (.trace tracer)).runs = e.runs.set r { run with
      stack := .trace (e.nextSpan tracer) :: run.stack
      control := .entering { ctx with span := some (e.nextSpan tracer) } } := by
  cases tracer <;> rfl

/-- What has been opened stays known. -/
theorem Tracing.knows
    (tracing : e.Tracing e')
    (known : e.knows span) :
    e'.knows span := by
  cases tracing with
  | onlooks honlooks => exact honlooks.grows.knows known
  | drops _ grows => exact grows.knows known
  | @moves r run run' job job' signs entry decorated walked traces =>
      cases traces with
      | @opens ctx tracer control layer same =>
          rw [same]
          exact (e.knows_openSpan tracer "cron_job" (parentSpan tracer ctx run.stack)
            [("key", e.jobKey run.job)]).2 span known
      | @closes o span' frames control stack same =>
          rw [same, leaveFrame_trace]
          exact (grows_of_eq rfl rfl).knows (knows_closeSpan o known)
      | aside untraced => exact untraced.grows.knows known

/-- The frame at a depth of a stack that has one more. -/
theorem getElem?_reverse_cons
    (f : Frame)
    (frames : List Frame)
    (k : Nat) :
    (f :: frames).reverse[k]? = if k = frames.length then some f else frames.reverse[k]? := by
  rw [List.reverse_cons]
  rcases Nat.lt_trichotomy k frames.length with hk | rfl | hk
  · rw [List.getElem?_append_left (by simpa using hk), if_neg hk.ne]
  · simp
  · rw [if_neg hk.ne', List.getElem?_eq_none (by simpa using hk),
      List.getElem?_eq_none (by simpa using hk.le)]

/-- A move that opens no span brings none onto the stack of its run. -/
theorem Walk.trace_before
    (h : e.Walk r run job run' job' signs)
    (opensNone : ∀ ctx tracer, run.control = .entering ctx →
      job.layers[run.stack.length]? ≠ some (.trace tracer))
    (bears : run'.stack.reverse[k]? = some (.trace span)) :
    run.stack.reverse[k]? = some (.trace span) := by
  have hpush : ∀ {f : Frame}, f ≠ .trace span → (f :: run.stack).reverse[k]? = some (.trace span) →
      run.stack.reverse[k]? = some (.trace span) := by
    intro f hf h
    rw [getElem?_reverse_cons] at h
    split at h
    · exact absurd (Option.some.inj h) hf
    · exact h
  have hpop : ∀ {f : Frame} {frames : List Frame}, run.stack = f :: frames →
      frames.reverse[k]? = some (.trace span) → run.stack.reverse[k]? = some (.trace span) := by
    intro f frames stack h
    have hk : k < frames.length := by simpa using (List.getElem?_eq_some_iff.1 h).1
    rw [stack, getElem?_reverse_cons, if_neg hk.ne, h]
  have hturn : ∀ {f g : Frame} {frames : List Frame}, run.stack = f :: frames → g ≠ .trace span →
      (g :: frames).reverse[k]? = some (.trace span) →
      run.stack.reverse[k]? = some (.trace span) := by
    intro f g frames stack hg h
    rw [getElem?_reverse_cons] at h
    split at h
    · exact absurd (Option.some.inj h) hg
    · exact hpop stack h
  cases h with
  | @enter ctx ctx' l l' f control layer opens =>
      refine hpush ?_ bears
      rintro rfl
      cases opens with
      | trace tracer => exact opensNone ctx tracer control layer
  | take | letIn => exact hpush (by simp) bears
  | skip | miss | join | call | wake | proceed | answer | burst | finish | escape => exact bears
  | bar control stack | rescue control stack | overflow control stack | settle control stack
  | stop control stack | pass control stack | unwind control stack => exact hpop stack bears
  | pause control stack | again control stack => exact hturn stack (by simp) bears

/-- A run has a span on its stack, at a depth. -/
def Bears
    (e : Executor)
    (span : SpanRef)
    (r : RunId)
    (k : Nat) :
    Prop :=
  ∃ run, e.runs[r]? = some run ∧ run.stack.reverse[k]? = some (.trace span)

/-- **No span comes onto a stack but one that is opened.** -/
theorem Tracing.bears
    (tracing : e.Tracing e')
    (bears : e'.Bears span r k) :
    e.Bears span r k ∨ e'.knows span ∧ ∃ tracer, span = e.nextSpan tracer := by
  obtain ⟨run', entry', hframe⟩ := bears
  cases tracing with
  | onlooks honlooks =>
      obtain ⟨more, hruns, hmore⟩ := honlooks.runs
      rw [hruns] at entry'
      rcases Nat.lt_or_ge r e.runs.length with hlt | hge
      · rw [List.getElem?_append_left hlt] at entry'
        exact Or.inl ⟨run', entry', hframe⟩
      · rw [List.getElem?_append_right hge] at entry'
        simp [hmore run' (List.mem_of_getElem? entry')] at hframe
  | @drops i moved entry grows runs =>
      rw [runs] at entry'
      by_cases hi : i = r
      · subst hi
        rw [List.getElem?_set_self (List.getElem?_eq_some_iff.1 entry).1] at entry'
        simp [← Option.some.inj entry'] at hframe
      · rw [List.getElem?_set_ne hi] at entry'
        exact Or.inl ⟨run', entry', hframe⟩
  | @moves i moved moved' job job' signs entry decorated walked traces =>
      have hlt := (List.getElem?_eq_some_iff.1 entry).1
      rw [walked.runs] at entry'
      by_cases hi : i = r
      · subst hi
        rw [List.getElem?_set_self hlt] at entry'
        obtain rfl := Option.some.inj entry'
        have hself := walked.entry entry
        cases traces with
        | @opens ctx tracer control layer same =>
            rw [same, runs_enterLayer_trace, List.getElem?_set_self hlt] at hself
            rw [← Option.some.inj hself, getElem?_reverse_cons] at hframe
            split at hframe
            · obtain rfl := Frame.trace.inj (Option.some.inj hframe)
              refine Or.inr ⟨?_, tracer, rfl⟩
              rw [same]
              exact (e.knows_openSpan tracer "cron_job" (parentSpan tracer ctx moved.stack)
                [("key", e.jobKey moved.job)]).1
            · exact Or.inl ⟨moved, entry, hframe⟩
        | closes control stack =>
            exact Or.inl ⟨moved, entry, walked.walk.trace_before (by simp [control]) hframe⟩
        | aside untraced opensNone =>
            exact Or.inl ⟨moved, entry, walked.walk.trace_before opensNone hframe⟩
      · rw [List.getElem?_set_ne hi] at entry'
        exact Or.inl ⟨run', entry', hframe⟩

/-- The spans on all stacks are known. -/
def Acquainted (e : Executor) : Prop :=
  ∀ span r k, e.Bears span r k → e.knows span

/-- From nothing on, the spans on all stacks are known. -/
theorem Path.acquainted
    {e₀ : Executor}
    {l : List (Executor × Executor)}
    (path : Path Occurs e₀ l e)
    (runs₀ : e₀.runs = [])
    (jobs₀ : e₀.jobs = []) :
    e.Acquainted := by
  induction path with
  | start =>
      rintro span r k ⟨run, entry, -⟩
      simp [runs₀] at entry
  | next path last ih =>
      intro span r k hbears
      have htracing := last.tracing (path.orderly runs₀ jobs₀).1.rooted
      rcases htracing.bears hbears with h | ⟨hknown, -⟩
      · exact htracing.knows (ih span r k h)
      · exact hknown

end Bearers

end Executor
end Timetable
