import Timetable.Proofs.Executor.Driving

/-!
# How a run walks

A move of a run changes its own entry in the table and the state of its job, and
counts what it has done.  Here this is said once, with what the move read: what the
layer at the run's depth holds, what the clock shows, which tokens are cancelled, and
what the call of the task says.  Whatever is proved about runs is proved from this
list.

What is counted are figures of the journal and calls of tasks.  The gauge of the runs
in progress is left out, since it belongs to the trackers.

Main results:

* a layer that lets a run in changes as its wrapper says (Opens), and every move makes of
  a run and its job one of twenty-two things (Walk);
* a move of a run walks, and counts what the walk says (walked_of_mem_runMoves).
-/

namespace Timetable

/-- Something that is counted: a figure of the journal, or the calls of the tasks of a key. -/
inductive Sign where
  | figure (m : Metric)
  | call (key : String)
  deriving DecidableEq

/-- The outcome with which a call ends, if it does not unwind. -/
def Ending.outcome? : Ending → Option Outcome
  | succeed => some .ok
  | fail message => some (.err (.failed message))
  | panic _ => none

/-- What the fault barrier counts at the end of a run: its duration, and its failure if the run
returned one. -/
def Outcome.endSigns
    (key : String) :
    Outcome → List Sign
  | .err ⟨_, .failed⟩ => [.figure (.runDurations key), .figure (.failures key)]
  | _ => [.figure (.runDurations key)]

/-- The frame of a layer that keeps outcomes. -/
def Frame.keepsOutcome : Frame → Bool
  | recover => true
  | retry _ _ _ _ => true
  | _ => false

namespace Job

/-- The job after its task has been called. -/
def called (job : Job) : Job :=
  { job with task := { job.task with calls := job.task.calls + 1 } }

/-- The job whose task has kept an outcome. -/
def answered
    (job : Job)
    (o : Outcome) :
    Job :=
  { job with task := { job.task with last := some o } }

/-- The job after the frame at a depth has given up what its layer holds. -/
def released
    (job : Job)
    (depth : Nat)
    (f : Frame) :
    Job :=
  match f with
  | .skip => job.setLayer depth (.skip false)
  | .delay =>
      match job.layers[depth]? with
      | some (.delay lock) => job.setLayer depth (.delay lock.release)
      | _ => job
  | _ => job

/-- Setting a layer to what it is changes nothing. -/
theorem setLayer_self
    {job : Job}
    {k : Nat}
    {l : Layer}
    (h : job.layers[k]? = some l) :
    job.setLayer k l = job := by
  obtain ⟨hlt, rfl⟩ := List.getElem?_eq_some_iff.1 h
  simp [setLayer]

end Job

namespace Executor

/-- How often something has been counted. -/
def tally
    (e : Executor) :
    Sign → Nat
  | .figure m => e.journal.value m
  | .call key => e.calls.countP fun call => call.key == key

/-- What a run does when it has called a task. -/
def callControl
    (e : Executor)
    (task : Task)
    (ctx : Context) :
    Control :=
  let a := task.script task.calls e.calls.length
  match a.sleep with
  | some n => .asleep (e.now + n) a e.calls.length ctx
  | none => .held a e.calls.length ctx

/-- A layer lets a run in: the frame that the run gets, what the layer holds then, and the
context further inside. -/
inductive Opens
    (e : Executor)
    (r : RunId)
    (ctx : Context) :
    Layer → Frame → Layer → Context → Prop
  | recover (last : Option Outcome) :
      Opens e r ctx (.recover last) .recover (.recover last) ctx
  | track (t : TrackerId) :
      Opens e r ctx (.track t) (.track t) (.track t) ctx
  | retry
      (signal : SignalId)
      (limit : Int)
      (interval : Span)
      (last : Option Outcome) :
      Opens e r ctx (.retry signal limit interval last)
        (.retry (e.signalToken signal) ctx 0 none) (.retry signal limit interval last) ctx
  | skip : Opens e r ctx (.skip false) .skip (.skip true) ctx
  | delay
      {lock : Lock}
      (free : lock.holder = none) :
      Opens e r ctx (.delay lock) .delay (.delay { lock with holder := some r }) ctx
  | trace
      (tracer : Tracer)
      (span : SpanRef) :
      Opens e r ctx (.trace tracer) (.trace span) (.trace tracer) { ctx with span := some span }
  | tag (name : String) :
      Opens e r ctx (.tag name) (.tag name) (.tag name) ctx

/-- What one move makes of a run and its job, and what it counts. -/
inductive Walk
    (e : Executor)
    (r : RunId)
    (run : Run)
    (job : Job) :
    Run → Job → List Sign → Prop
  | enter
      {ctx ctx' : Context}
      {l l' : Layer}
      {f : Frame}
      (control : run.control = .entering ctx)
      (layer : job.layers[run.stack.length]? = some l)
      (opens : e.Opens r ctx l f l' ctx') :
      Walk e r run job { run with stack := f :: run.stack, control := .entering ctx' }
        (job.setLayer run.stack.length l') []
  /-- A run that finds another one in progress is dropped. -/
  | skip
      {ctx : Context}
      (control : run.control = .entering ctx)
      (layer : job.layers[run.stack.length]? = some (.skip true)) :
      Walk e r run job { run with control := .leaving .ok } job
        [.figure (.skips job.task.key)]
  /-- A run that finds a lock taken has yet to join its queue. -/
  | miss
      {ctx : Context}
      {lock : Lock}
      {holder : RunId}
      (control : run.control = .entering ctx)
      (layer : job.layers[run.stack.length]? = some (.delay lock))
      (held : lock.holder = some holder) :
      Walk e r run job { run with control := .joining ctx } job []
  | join
      {ctx : Context}
      {lock : Lock}
      {holder : RunId}
      (control : run.control = .joining ctx)
      (layer : job.layers[run.stack.length]? = some (.delay lock))
      (held : lock.holder = some holder) :
      Walk e r run job { run with control := .queued ctx }
        (job.setLayer run.stack.length (.delay (lock.join r))) []
  /-- The lock has become free before the run has joined its queue. -/
  | take
      {ctx : Context}
      {lock : Lock}
      (control : run.control = .joining ctx)
      (layer : job.layers[run.stack.length]? = some (.delay lock))
      (free : lock.holder = none) :
      Walk e r run job { run with stack := .delay :: run.stack, control := .entering ctx }
        (job.setLayer run.stack.length (.delay { lock with holder := some r })) []
  /-- The lock has come to a run that waited for it. -/
  | letIn
      {ctx : Context}
      {lock : Lock}
      (control : run.control = .queued ctx)
      (layer : job.layers[run.stack.length]? = some (.delay lock))
      (held : lock.holder = some r) :
      Walk e r run job { run with stack := .delay :: run.stack, control := .entering ctx } job []
  | call
      {ctx : Context}
      (control : run.control = .entering ctx)
      (innermost : job.layers[run.stack.length]? = none) :
      Walk e r run job { run with control := e.callControl job.task ctx } job.called
        [.call job.task.key]
  | wake
      {wake : Nat}
      {a : Attempt}
      {call : Nat}
      {ctx : Context}
      (control : run.control = .asleep wake a call ctx)
      (isDue : wake ≤ e.now) :
      Walk e r run job { run with control := .held a call ctx } job []
  | proceed
      {a : Attempt}
      {call : Nat}
      {ctx : Context}
      (control : run.control = .held a call ctx)
      (free : a.untilCancelled = false ∨ e.isCancelled ctx.token = true) :
      Walk e r run job { run with control := .ending a call } job []
  | answer
      {a : Attempt}
      {call : Nat}
      {o : Outcome}
      (control : run.control = .ending a call)
      (ending : a.ending.outcome? = some o) :
      Walk e r run job { run with control := .leaving o } (job.answered o) []
  | burst
      {a : Attempt}
      {call : Nat}
      {p : Payload}
      (control : run.control = .ending a call)
      (ending : a.ending = .panic p) :
      Walk e r run job { run with control := .unwinding p } job []
  /-- The fault barrier notes the end of a run. -/
  | bar
      {o : Outcome}
      {frames : List Frame}
      (control : run.control = .leaving o)
      (stack : run.stack = .recover :: frames) :
      Walk e r run job { run with stack := frames, control := .leaving o }
        (job.setLast frames.length o) (o.endSigns job.task.key)
  /-- The fault barrier stops the unwinding. -/
  | rescue
      {p : Payload}
      {frames : List Frame}
      (control : run.control = .unwinding p)
      (stack : run.stack = .recover :: frames) :
      Walk e r run job
        { run with stack := frames, control := .leaving (.err (.panicked p.message)) }
        (job.setLast frames.length (.err (.panicked p.message)))
        [.figure (.panics job.task.key), .figure (.runDurations job.task.key)]
  /-- The clock never gets to the first repetition. -/
  | overflow
      {o : Outcome}
      {shutdown : TokenId}
      {ctx : Context}
      {repeated : Nat}
      {due : Option Nat}
      {frames : List Frame}
      (control : run.control = .leaving o)
      (stack : run.stack = .retry shutdown ctx repeated due :: frames)
      (never : due.or (firstTick? e.nanos (e.retrySettings run frames.length).2) = none) :
      Walk e r run job { run with stack := frames, control := .unwinding clockOverflow } job []
  /-- The outcome of an attempt is the last one, since it is good or no repetition is left. -/
  | settle
      {o : Outcome}
      {shutdown : TokenId}
      {ctx : Context}
      {repeated : Nat}
      {due : Option Nat}
      {next : Nat}
      {frames : List Frame}
      (control : run.control = .leaving o)
      (stack : run.stack = .retry shutdown ctx repeated due :: frames)
      (tick : due.or (firstTick? e.nanos (e.retrySettings run frames.length).2) = some next)
      (enough : o = .ok ∨ exhausted (e.retrySettings run frames.length).1 repeated = true) :
      Walk e r run job { run with stack := frames, control := .leaving o }
        (job.setLast frames.length o) []
  | pause
      {f : JobFailure}
      {shutdown : TokenId}
      {ctx : Context}
      {repeated : Nat}
      {due : Option Nat}
      {next : Nat}
      {frames : List Frame}
      (control : run.control = .leaving (.err f))
      (stack : run.stack = .retry shutdown ctx repeated due :: frames)
      (tick : due.or (firstTick? e.nanos (e.retrySettings run frames.length).2) = some next)
      (more : exhausted (e.retrySettings run frames.length).1 repeated = false) :
      Walk e r run job
        { run with
          stack := .retry shutdown ctx repeated (some next) :: frames
          control := .pausing f }
        job []
  | again
      {f : JobFailure}
      {shutdown : TokenId}
      {ctx : Context}
      {repeated due : Nat}
      {frames : List Frame}
      (control : run.control = .pausing f)
      (stack : run.stack = .retry shutdown ctx repeated (some due) :: frames)
      (isDue : due ≤ e.nanos) :
      Walk e r run job
        { run with
          stack := .retry shutdown ctx (repeated + 1)
            (some (nextTick e.nanos due (e.retrySettings run frames.length).2)) :: frames
          control := .entering ctx }
        job [.figure (.retries job.task.key)]
  /-- A cancellation ends the repetition. -/
  | stop
      {f : JobFailure}
      {shutdown : TokenId}
      {ctx : Context}
      {repeated due : Nat}
      {frames : List Frame}
      (control : run.control = .pausing f)
      (stack : run.stack = .retry shutdown ctx repeated (some due) :: frames)
      (cancelled : e.isCancelled shutdown = true ∨ e.isCancelled ctx.token = true) :
      Walk e r run job { run with stack := frames, control := .leaving (.err f) }
        (job.setLast frames.length (.err f)) []
  /-- An outcome passes a layer that keeps none. -/
  | pass
      {o : Outcome}
      {f : Frame}
      {frames : List Frame}
      (control : run.control = .leaving o)
      (stack : run.stack = f :: frames)
      (plain : f.keepsOutcome = false) :
      Walk e r run job { run with stack := frames, control := .leaving o }
        (job.released frames.length f) []
  | unwind
      {p : Payload}
      {f : Frame}
      {frames : List Frame}
      (control : run.control = .unwinding p)
      (stack : run.stack = f :: frames)
      (open' : f ≠ .recover) :
      Walk e r run job { run with stack := frames, control := .unwinding p }
        (job.released frames.length f) []
  | finish
      {o : Outcome}
      (control : run.control = .leaving o)
      (stack : run.stack = []) :
      Walk e r run job { run with control := .returned o, finished := some e.now } job []
  | escape
      {p : Payload}
      (control : run.control = .unwinding p)
      (stack : run.stack = []) :
      Walk e r run job { run with control := .unwound p, finished := some e.now } job []

/-- A run of a job walks by one move: nothing else has changed among the runs and jobs, and as
much has been counted as the walk says. -/
structure Walked
    (e e' : Executor)
    (r : RunId)
    (run : Run)
    (job : Job)
    (run' : Run)
    (job' : Job)
    (signs : List Sign) :
    Prop where
  walk : e.Walk r run job run' job' signs
  runs : e'.runs = e.runs.set r run'
  jobs : e'.jobs = e.jobs.set run.job job'
  tally : ∀ s, s ≠ .figure .inFlightRuns → e'.tally s = e.tally s + signs.count s

section Tallies

variable (e : Executor) {s : Sign}

/-- Events that touch no figure but the gauge of the runs in progress count nothing. -/
theorem tally_noteAll
    {events : List Event}
    (hs : s ≠ .figure .inFlightRuns)
    (untouched : ∀ event ∈ events, ∀ m, event.metric? = some m → m = .inFlightRuns) :
    (e.noteAll events).tally s = e.tally s := by
  cases s with
  | call key => rfl
  | figure m =>
      refine Journal.value_noteAll_of_untouched ?_ e.journal
      intro event hevent hm
      exact hs (congrArg Sign.figure (untouched event hevent m hm))

theorem tally_note
    {event : Event}
    (hs : s ≠ .figure .inFlightRuns)
    (untouched : event.metric? = none) :
    (e.note event).tally s = e.tally s := by
  show (e.noteAll [event]).tally s = e.tally s
  refine e.tally_noteAll hs ?_
  intro event' hevent m hm
  rw [List.mem_singleton.1 hevent, untouched] at hm
  cases hm

/-- A count adds one to its figure. -/
theorem tally_count (m : Metric) :
    (e.count m).tally s = e.tally s + [Sign.figure m].count s := by
  cases s with
  | call key => simp [count, note, tally]
  | figure m' =>
      simp only [count, note, tally, Journal.value_note, Event.apply, List.count_singleton]
      by_cases hm : m = m' <;> simp [hm]

theorem tally_logRun
    (hs : s ≠ .figure .inFlightRuns)
    (run : Run)
    (frames : List Frame)
    (level : Level)
    (message : String)
    (fields : List (String × String)) :
    (e.logRun run frames level message fields).tally s = e.tally s :=
  e.tally_note hs rfl

theorem tally_setTracker
    (hs : s ≠ .figure .inFlightRuns)
    (t : TrackerId)
    (tracker : Tracker) :
    (e.setTracker t tracker).tally s = e.tally s := by
  refine Eq.trans (tally_noteAll _ hs ?_) rfl
  intro event hevent m hm
  unfold Tracker.gauge at hevent
  split at hevent
  · rw [List.mem_singleton.1 hevent] at hm
    exact (Option.some.inj hm).symm
  · cases hevent

theorem tally_enter
    (hs : s ≠ .figure .inFlightRuns)
    (t : TrackerId) :
    (e.enter t).tally s = e.tally s := by
  unfold enter
  split
  · exact e.tally_setTracker hs _ _
  · rfl

theorem tally_leave
    (hs : s ≠ .figure .inFlightRuns)
    (t : TrackerId) :
    (e.leave t).tally s = e.tally s := by
  unfold leave
  split
  · exact e.tally_setTracker hs _ _
  · rfl

theorem tally_openSpan
    (hs : s ≠ .figure .inFlightRuns)
    (tracer : Tracer)
    (name : String)
    (parent : Option SpanRef)
    (tags : List (String × String)) :
    (e.openSpan tracer name parent tags).1.tally s = e.tally s := by
  cases tracer with
  | recording => cases s <;> rfl
  | logging => exact e.tally_note hs rfl
  | silent => rfl

theorem tally_attachFailure
    (hs : s ≠ .figure .inFlightRuns)
    (span : SpanRef)
    (f : JobFailure) :
    (e.attachFailure span f).tally s = e.tally s := by
  cases span with
  | recorded n => cases s <;> rfl
  | logged n => exact (tally_note _ hs rfl).trans (e.tally_note hs rfl)
  | silent => rfl

theorem tally_finishSpan
    (hs : s ≠ .figure .inFlightRuns)
    (span : SpanRef) :
    (e.finishSpan span).tally s = e.tally s := by
  cases span with
  | recorded n => cases s <;> rfl
  | logged n => exact e.tally_note hs rfl
  | silent => rfl

end Tallies

/-- Nothing has happened to the runs; the job at a place has become another one, and so much has
been counted. -/
structure Amends
    (e e₁ : Executor)
    (j : JobId)
    (job : Job)
    (signs : List Sign) :
    Prop where
  runs : e₁.runs = e.runs
  jobs : e₁.jobs = e.jobs.set j job
  lt : j < e.jobs.length
  tally : ∀ s, s ≠ .figure .inFlightRuns → e₁.tally s = e.tally s + signs.count s

namespace Amends

variable {e e₁ : Executor} {j : JobId} {job : Job} {signs : List Sign}

theorem refl (hjob : e.jobs[j]? = some job) : e.Amends e j job [] := by
  obtain ⟨hlt, rfl⟩ := List.getElem?_eq_some_iff.1 hjob
  exact ⟨rfl, (List.set_getElem_self hlt).symm, hlt, fun _ _ => rfl⟩

/-- The job that has become another one. -/
theorem entry (h : e.Amends e₁ j job signs) : e₁.jobs[j]? = some job := by
  rw [h.jobs]
  exact List.getElem?_set_self h.lt

theorem jobKey (h : e.Amends e₁ j job signs) : e₁.jobKey j = job.task.key := by
  simp [Executor.jobKey, h.entry]

/-- A change that concerns neither runs nor jobs, and counts nothing. -/
theorem keep
    {e₂ : Executor}
    (h : e.Amends e₁ j job signs)
    (runs : e₂.runs = e₁.runs)
    (jobs : e₂.jobs = e₁.jobs)
    (tally : ∀ s, s ≠ .figure .inFlightRuns → e₂.tally s = e₁.tally s) :
    e.Amends e₂ j job signs :=
  ⟨runs.trans h.runs, jobs.trans h.jobs, h.lt, fun s hs => (tally s hs).trans (h.tally s hs)⟩

theorem count
    (h : e.Amends e₁ j job signs)
    (m : Metric) :
    e.Amends (e₁.count m) j job (signs ++ [.figure m]) := by
  refine ⟨h.runs, h.jobs, h.lt, ?_⟩
  intro s hs
  rw [tally_count, h.tally s hs, List.count_append, Nat.add_assoc]

theorem logRun
    (h : e.Amends e₁ j job signs)
    (run : Run)
    (frames : List Frame)
    (level : Level)
    (message : String)
    (fields : List (String × String)) :
    e.Amends (e₁.logRun run frames level message fields) j job signs :=
  h.keep rfl rfl fun _ hs => e₁.tally_logRun hs _ _ _ _ _

theorem modifyJob
    (h : e.Amends e₁ j job signs)
    (f : Job → Job) :
    e.Amends (e₁.modifyJob j f) j (f job) signs := by
  refine ⟨h.runs, ?_, h.lt, fun s hs => by cases s <;> exact h.tally _ hs⟩
  show e₁.jobs.modify j f = _
  rw [← set_eq_modify f h.entry, h.jobs, List.set_set]

theorem enter
    (h : e.Amends e₁ j job signs)
    (t : TrackerId) :
    e.Amends (e₁.enter t) j job signs := by
  refine h.keep ?_ ?_ fun _ hs => e₁.tally_enter hs t
  all_goals
    obtain ⟨journal, hEq⟩ := e₁.enter_eq t
    rw [hEq]

theorem leave
    (h : e.Amends e₁ j job signs)
    (t : TrackerId) :
    e.Amends (e₁.leave t) j job signs := by
  refine h.keep ?_ ?_ fun _ hs => e₁.tally_leave hs t
  all_goals
    obtain ⟨journal, hEq⟩ := e₁.leave_eq t
    rw [hEq]

theorem openSpan
    (h : e.Amends e₁ j job signs)
    (tracer : Tracer)
    (name : String)
    (parent : Option SpanRef)
    (tags : List (String × String)) :
    e.Amends (e₁.openSpan tracer name parent tags).1 j job signs :=
  h.keep (by cases tracer <;> rfl) (by cases tracer <;> rfl)
    fun _ hs => e₁.tally_openSpan hs tracer name parent tags

theorem attachFailure
    (h : e.Amends e₁ j job signs)
    (span : SpanRef)
    (f : JobFailure) :
    e.Amends (e₁.attachFailure span f) j job signs :=
  h.keep (by cases span <;> rfl) (by cases span <;> rfl)
    fun _ hs => e₁.tally_attachFailure hs span f

theorem finishSpan
    (h : e.Amends e₁ j job signs)
    (span : SpanRef) :
    e.Amends (e₁.finishSpan span) j job signs :=
  h.keep (by cases span <;> rfl) (by cases span <;> rfl) fun _ hs => e₁.tally_finishSpan hs span

/-- What a frame holds is given up. -/
theorem release
    {run : Run}
    (h : e.Amends e₁ run.job job signs)
    (depth : Nat)
    (f : Frame) :
    e.Amends (e₁.release run depth f) run.job (job.released depth f) signs := by
  have hlayer : e₁.layer? run.job depth = job.layers[depth]? := by
    rw [layer?, h.entry, Option.bind_some]
  cases f with
  | track t => exact h.leave t
  | skip => exact h.modifyJob _
  | delay =>
      simp only [Executor.release, hlayer, Job.released]
      cases job.layers[depth]? with
      | none => exact h
      | some l =>
          cases l with
          | delay lock => exact h.modifyJob _
          | _ => exact h
  | recover | retry | trace | tag => exact h

/-- The fault barrier notes the end of a run. -/
theorem noteEnd
    {run : Run}
    (h : e.Amends e₁ run.job job signs)
    (frames : List Frame)
    (o : Outcome) :
    e.Amends (e₁.noteEnd run frames o) run.job (job.setLast frames.length o)
      (signs ++ o.endSigns job.task.key) := by
  have hcount := h.count (.runDurations job.task.key)
  unfold Executor.noteEnd
  rw [h.jobKey]
  refine modifyJob ?_ _
  cases o with
  | ok => exact hcount
  | err f =>
      obtain ⟨message, kind⟩ := f
      cases kind with
      | panicked => exact hcount
      | failed =>
          have hfailed := (hcount.count (.failures job.task.key)).logRun run frames .debug
            "Job run failed" [("error", JobFailure.display ⟨message, .failed⟩)]
          rwa [List.append_assoc] at hfailed

/-- Whatever has been amended, the run takes up its way. -/
theorem walked
    {r : RunId}
    {run run' : Run}
    {job₀ : Job}
    (h : e.Amends e₁ run.job job signs)
    (walk : e.Walk r run job₀ run' job signs) :
    e.Walked (e₁.setRun r run') r run job₀ run' job signs := by
  refine ⟨walk, ?_, h.jobs, fun s hs => by cases s <;> exact h.tally _ hs⟩
  show e₁.runs.set r run' = _
  rw [h.runs]

end Amends

section Moves

variable {e : Executor} {run : Run} {job : Job}

theorem walked_enterLayer
    (r : RunId)
    {ctx : Context}
    {l : Layer}
    (hjob : e.jobs[run.job]? = some job)
    (control : run.control = .entering ctx)
    (layer : job.layers[run.stack.length]? = some l) :
    ∃ run' job' signs, e.Walked (e.enterLayer r run ctx l) r run job run' job' signs := by
  have hstart := Amends.refl hjob
  have hsame : ∀ {e₁ : Executor} {f : Frame} {ctx' : Context},
      e.Amends e₁ run.job job [] → e.Opens r ctx l f l ctx' →
      ∃ run' job' signs, e.Walked (e₁.push r run f (.entering ctx')) r run job run' job' signs := by
    intro e₁ f ctx' h opens
    have hwalk := Walk.enter control layer opens
    rw [Job.setLayer_self layer] at hwalk
    exact ⟨_, _, _, h.walked hwalk⟩
  cases l with
  | recover last => exact hsame hstart (.recover last)
  | track t => exact hsame (hstart.enter t) (.track t)
  | retry signal limit interval last => exact hsame hstart (.retry signal limit interval last)
  | skip inProgress =>
      cases inProgress with
      | true =>
          have hcount := (hstart.count (.skips job.task.key)).logRun run run.stack .debug
            "Previous run still in progress, skipping" []
          rw [← hstart.jobKey] at hcount
          exact ⟨_, _, _, hcount.walked (by
            rw [hstart.jobKey]
            exact .skip control layer)⟩
      | false => exact ⟨_, _, _, (hstart.modifyJob _).walked (.enter control layer .skip)⟩
  | delay lock =>
      rcases Option.eq_none_or_eq_some lock.holder with hholder | ⟨holder, hholder⟩
      · simp only [enterLayer, hholder]
        exact ⟨_, _, _, (hstart.modifyJob _).walked (.enter control layer (.delay hholder))⟩
      · simp only [enterLayer, hholder]
        exact ⟨_, _, _, hstart.walked (.miss control layer hholder)⟩
  | trace tracer => exact hsame (hstart.openSpan tracer _ _ _) (.trace tracer _)
  | tag name => exact hsame (hstart.keep rfl rfl fun s _ => by cases s <;> rfl) (.tag name)

theorem walked_joinQueue
    (r : RunId)
    {ctx : Context}
    {lock : Lock}
    (hjob : e.jobs[run.job]? = some job)
    (control : run.control = .joining ctx)
    (layer : job.layers[run.stack.length]? = some (.delay lock)) :
    ∃ run' job' signs, e.Walked (e.joinQueue r run ctx lock) r run job run' job' signs := by
  have hstart := Amends.refl hjob
  unfold joinQueue
  rcases Option.eq_none_or_eq_some lock.holder with hholder | ⟨holder, hholder⟩
  · simp only [hholder]
    exact ⟨_, _, _, ((hstart.modifyJob _).logRun _ _ _ _ _).walked (.take control layer hholder)⟩
  · simp only [hholder]
    exact ⟨_, _, _, (hstart.modifyJob _).walked (.join control layer hholder)⟩

theorem walked_callTask
    (r : RunId)
    {ctx : Context}
    (hjob : e.jobs[run.job]? = some job)
    (control : run.control = .entering ctx)
    (innermost : job.layers[run.stack.length]? = none) :
    ∃ run' job' signs, e.Walked (e.callTask r run ctx job.task) r run job run' job' signs := by
  have hcalled : e.jobs.modify run.job (fun j => { j with task :=
      { job.task with calls := job.task.calls + 1 } }) = e.jobs.set run.job job.called :=
    (set_eq_modify (fun j => { j with task :=
      { job.task with calls := job.task.calls + 1 } }) hjob).symm
  let call : Call :=
    { job := run.job, key := job.task.key, value := job.task.value, started := e.now
      cancelled := e.isCancelled ctx.token, span := ctx.span.bind SpanRef.recorded? }
  have hbegun : e.callTask r run ctx job.task =
      Executor.control { e with jobs := e.jobs.set run.job job.called, calls := e.calls ++ [call] }
        r run (e.callControl job.task ctx) := by
    rw [← hcalled]
    unfold callTask beginCall callControl
    cases hsleep : (job.task.script job.task.calls e.calls.length).sleep <;>
      simp only [hsleep] <;> rfl
  rw [hbegun]
  refine ⟨_, _, _, .call control innermost, rfl, rfl, ?_⟩
  intro s _
  cases s with
  | figure m => simp [Executor.control, setRun, tally]
  | call key =>
      by_cases hkey : job.task.key = key <;>
        simp [Executor.control, setRun, tally, call, hkey]

theorem walked_endCall
    (r : RunId)
    {a : Attempt}
    {call : Nat}
    (hjob : e.jobs[run.job]? = some job)
    (control : run.control = .ending a call) :
    ∃ run' job' signs, e.Walked (e.endCall r run a call) r run job run' job' signs := by
  let e₁ : Executor :=
    { e with calls := e.calls.modify call fun c => { c with finished := some e.now } }
  have hcalls : e.Amends e₁ run.job job [] := by
    refine (Amends.refl hjob).keep rfl rfl ?_
    intro s _
    cases s with
    | figure m => rfl
    | call key =>
        have hkeys : e₁.calls.map Call.key = e.calls.map Call.key := by
          refine List.ext_getElem? fun k => ?_
          simp only [e₁, List.getElem?_map, List.getElem?_modify]
          cases e.calls[k]? with
          | none => rfl
          | some c => by_cases hk : call = k <;> simp [hk]
        have hcount := congrArg (List.countP fun k => k == key) hkeys
        rwa [List.countP_map, List.countP_map] at hcount
  unfold endCall
  cases hending : a.ending with
  | succeed =>
      exact ⟨_, _, _, (hcalls.modifyJob _).walked (.answer control (by rw [hending]; rfl))⟩
  | fail message =>
      exact ⟨_, _, _, (hcalls.modifyJob _).walked (.answer control (by rw [hending]; rfl))⟩
  | panic payload => exact ⟨_, _, _, hcalls.walked (.burst control hending)⟩

theorem walked_attemptEnded
    (r : RunId)
    {o : Outcome}
    {shutdown : TokenId}
    {ctx : Context}
    {repeated : Nat}
    {due : Option Nat}
    {frames : List Frame}
    (hjob : e.jobs[run.job]? = some job)
    (control : run.control = .leaving o)
    (stack : run.stack = .retry shutdown ctx repeated due :: frames) :
    ∃ run' job' signs, e.Walked (e.attemptEnded r run frames shutdown ctx repeated due o)
      r run job run' job' signs := by
  have hstart := Amends.refl hjob
  simp only [attemptEnded]
  split
  · rename_i hnever
    exact ⟨_, _, _, hstart.walked (.overflow control stack hnever)⟩
  · rename_i next htick
    exact ⟨_, _, _, (hstart.modifyJob _).walked (.settle control stack htick (Or.inl rfl))⟩
  · rename_i next f htick
    split
    · rename_i hexhausted
      exact ⟨_, _, _, ((hstart.logRun _ _ _ _ _).modifyJob _).walked
        (.settle control stack htick (Or.inr hexhausted))⟩
    · rename_i hmore
      exact ⟨_, _, _, hstart.walked (.pause control stack htick (by simpa using hmore))⟩

theorem walked_leaveFrame
    (r : RunId)
    {o : Outcome}
    {f : Frame}
    {frames : List Frame}
    (hjob : e.jobs[run.job]? = some job)
    (control : run.control = .leaving o)
    (stack : run.stack = f :: frames) :
    ∃ run' job' signs, e.Walked (e.leaveFrame r run f frames o) r run job run' job' signs := by
  have hstart := Amends.refl hjob
  cases f with
  | recover => exact ⟨_, _, _, (hstart.noteEnd frames o).walked (.bar control stack)⟩
  | retry shutdown ctx repeated due => exact walked_attemptEnded r hjob control stack
  | track | skip | delay =>
      exact ⟨_, _, _, (hstart.release _ _).walked (.pass control stack rfl)⟩
  | trace span =>
      have hwalk : e.Walk r run job { run with stack := frames, control := .leaving o } job [] :=
        .pass control stack rfl
      cases o with
      | ok => exact ⟨_, _, _, (hstart.finishSpan span).walked hwalk⟩
      | err failure =>
          exact ⟨_, _, _, ((hstart.attachFailure span failure).finishSpan span).walked hwalk⟩
  | tag name =>
      have hwritten : e.Amends { e with order := e.order ++ ["exit " ++ name] } run.job job [] :=
        hstart.keep rfl rfl fun s _ => by cases s <;> rfl
      exact ⟨_, _, _, hwritten.walked (.pass control stack rfl)⟩

theorem walked_unwindFrame
    (r : RunId)
    {p : Payload}
    {f : Frame}
    {frames : List Frame}
    (hjob : e.jobs[run.job]? = some job)
    (control : run.control = .unwinding p)
    (stack : run.stack = f :: frames) :
    ∃ run' job' signs, e.Walked (e.unwindFrame r run f frames p) r run job run' job' signs := by
  have hstart := Amends.refl hjob
  cases f with
  | recover =>
      have hcaught := (hstart.count (.panics job.task.key)).logRun run frames .error
        "Job panicked" [("panic", p.message)]
      have hended := hcaught.noteEnd frames (.err (.panicked p.message))
      rw [← hstart.jobKey] at hended
      exact ⟨_, _, _, hended.walked (by
        rw [hstart.jobKey]
        exact .rescue control stack)⟩
  | track | retry | skip | delay | trace | tag =>
      exact ⟨_, _, _, (hstart.release _ _).walked (.unwind control stack (by simp))⟩

theorem walked_finishRun
    (r : RunId)
    {c : Control}
    (hjob : e.jobs[run.job]? = some job)
    (walk : e.Walk r run job { run with control := c, finished := some e.now } job []) :
    ∃ run' job' signs, e.Walked (e.finishRun r run c) r run job run' job' signs := by
  have hstart := Amends.refl hjob
  rcases Option.eq_none_or_eq_some run.counted with hc | ⟨t, hc⟩
  · have hfinish : e.finishRun r run c =
        e.setRun r { run with control := c, finished := some e.now } := by
      simp only [finishRun, hc]
    rw [hfinish]
    exact ⟨_, _, _, hstart.walked walk⟩
  · have hfinish : e.finishRun r run c =
        (e.leave t).setRun r { run with control := c, finished := some e.now } := by
      simp only [finishRun, hc, (e.timeless_leave t).now]
    rw [hfinish]
    exact ⟨_, _, _, (hstart.leave t).walked walk⟩

theorem walked_of_mem_pauseMoves
    {e' : Executor}
    {r : RunId}
    {f : JobFailure}
    (hjob : e.jobs[run.job]? = some job)
    (control : run.control = .pausing f)
    (h : e' ∈ e.pauseMoves r run f) :
    ∃ run' job' signs, e.Walked e' r run job run' job' signs := by
  have hstart := Amends.refl hjob
  unfold pauseMoves at h
  split at h
  · rename_i shutdown ctx repeated due frames stack
    have hstop : ∀ reason, e.isCancelled shutdown = true ∨ e.isCancelled ctx.token = true →
        ∃ run' job' signs, e.Walked (e.stopRepeating r run frames repeated f reason)
          r run job run' job' signs := fun reason hcancelled =>
      ⟨_, _, _, ((hstart.logRun _ _ _ _ _).modifyJob _).walked (.stop control stack hcancelled)⟩
    rw [List.mem_append, List.mem_append] at h
    rcases h with (h | h) | h
    · obtain ⟨hdue, rfl⟩ := mem_guarded_iff.1 h
      have hcount := (hstart.count (.retries job.task.key)).logRun run frames .debug
        "Retrying job" [("attempt", Text.numeral (repeated + 1)), ("error", f.display)]
      rw [← hstart.jobKey] at hcount
      exact ⟨_, _, _, hcount.walked (by
        rw [hstart.jobKey]
        exact .again control stack hdue)⟩
    · obtain ⟨hshutdown, rfl⟩ := mem_guarded_iff.1 h
      exact hstop _ (Or.inl hshutdown)
    · obtain ⟨hcontext, rfl⟩ := mem_guarded_iff.1 h
      exact hstop _ (Or.inr hcontext)
  · simp at h

/-- **A move of a run walks.** -/
theorem walked_of_mem_runMoves
    {e' : Executor}
    {r : RunId}
    (hrun : e.runs[r]? = some run)
    (hjob : e.jobs[run.job]? = some job)
    (h : e' ∈ e.runMoves r) :
    ∃ run' job' signs, e.Walked e' r run job run' job' signs := by
  have hstart := Amends.refl hjob
  have hlayer : ∀ depth, e.layer? run.job depth = job.layers[depth]? := by
    intro depth
    rw [layer?, hjob, Option.bind_some]
  simp only [runMoves, hrun, hjob] at h
  split at h
  · rename_i ctx control
    split at h
    · rename_i l layer
      obtain rfl := List.mem_singleton.1 h
      exact walked_enterLayer r hjob control layer
    · rename_i innermost
      obtain rfl := List.mem_singleton.1 h
      exact walked_callTask r hjob control innermost
  · rename_i ctx control
    unfold joinMoves at h
    rw [hlayer] at h
    split at h
    · rename_i lock layer
      obtain rfl := List.mem_singleton.1 h
      exact walked_joinQueue r hjob control layer
    · simp at h
  · rename_i ctx control
    obtain ⟨hheld, rfl⟩ := mem_guarded_iff.1 h
    unfold holdsLock at hheld
    rw [hlayer] at hheld
    split at hheld
    · rename_i lock layer
      exact ⟨_, _, _, (hstart.logRun _ _ _ _ _).walked
        (.letIn control layer (beq_iff_eq.1 hheld))⟩
    · cases hheld
  · rename_i wake a call ctx control
    obtain ⟨hdue, rfl⟩ := mem_guarded_iff.1 h
    exact ⟨_, _, _, hstart.walked (.wake control hdue)⟩
  · rename_i a call ctx control
    obtain ⟨hfree, rfl⟩ := mem_guarded_iff.1 h
    exact ⟨_, _, _, hstart.walked (.proceed control (by simpa using hfree))⟩
  · rename_i a call control
    obtain rfl := List.mem_singleton.1 h
    exact walked_endCall r hjob control
  · rename_i f control
    exact walked_of_mem_pauseMoves hjob control h
  · rename_i o control
    split at h
    · rename_i f frames stack
      obtain rfl := List.mem_singleton.1 h
      exact walked_leaveFrame r hjob control stack
    · rename_i stack
      obtain rfl := List.mem_singleton.1 h
      exact walked_finishRun r hjob (.finish control stack)
  · rename_i p control
    split at h
    · rename_i f frames stack
      obtain rfl := List.mem_singleton.1 h
      exact walked_unwindFrame r hjob control stack
    · rename_i stack
      obtain rfl := List.mem_singleton.1 h
      exact walked_finishRun r hjob (.escape control stack)
  all_goals simp at h

end Moves

end Executor
end Timetable
