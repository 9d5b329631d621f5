import Timetable.Proofs.Executor.Episodes

/-!
# Executors alike but for what a job shows

A layer keeps the outcome of the last run that it has let out, so that it can be shown.
Nothing else is done with it: two executors that differ at most in the outcomes that
the layers of one job keep do the same from then on, and go on to differ at most in
these.

Main results:

* whatever is done to the one can be done to the other (the lemmas of Alike), and so
  every move of the one is a move of the other (Alike.moves);
* whatever befalls the one may befall the other (Alike.befell).
-/

namespace Timetable

/-- The lock of a layer. -/
def Layer.lock? : Layer → Option Lock
  | delay lock => some lock
  | _ => none

@[simp] theorem Layer.lock?_bare (l : Layer) : l.bare.lock? = l.lock? := by
  cases l <;> rfl

namespace Job

/-- The job without the outcomes that its layers keep. -/
def bare (job : Job) : Job :=
  { job with layers := job.layers.map Layer.bare }

@[simp] theorem task_bare (job : Job) : job.bare.task = job.task :=
  rfl

/-- Jobs that are alike have the same task. -/
theorem task_of_bare
    {job job' : Job}
    (h : job'.bare = job.bare) :
    job'.task = job.task := by
  rw [← task_bare job', h, task_bare]

theorem layers_of_bare
    {job job' : Job}
    (h : job'.bare = job.bare) :
    job'.layers.map Layer.bare = job.layers.map Layer.bare :=
  congrArg (fun job : Job => job.layers) h

theorem bare_setLayer
    (job : Job)
    (k : Nat)
    (l : Layer) :
    (job.setLayer k l).bare = job.bare.setLayer k l.bare := by
  simp [bare, setLayer, List.map_set]

@[simp] theorem bare_setLast
    (job : Job)
    (k : Nat)
    (o : Outcome) :
    (job.setLast k o).bare = job.bare := by
  have hlayers := job.map_bare_setLast k o
  unfold bare
  rw [hlayers]
  rfl

end Job

namespace Executor

/-- Another executor differs at most in the outcomes that the layers of a job keep. -/
inductive Alike
    (j : JobId)
    (e : Executor) :
    Executor → Prop
  | intro
      {jobs : List Job}
      (same : jobs.modify j Job.bare = e.jobs.modify j Job.bare) :
      Alike j e { e with jobs := jobs }

namespace Alike

variable {j : JobId} {e f : Executor}

theorem refl
    (j : JobId)
    (e : Executor) :
    Alike j e e :=
  .intro rfl

theorem symm (h : Alike j e f) : Alike j f e := by
  obtain ⟨same⟩ := h
  exact .intro same.symm

/-- Both have all but their jobs in common. -/
theorem rest (h : Alike j e f) : f = { e with jobs := f.jobs } := by
  obtain ⟨-⟩ := h
  rfl

theorem now (h : Alike j e f) : f.now = e.now := by
  rw [h.rest]

theorem nanos (h : Alike j e f) : f.nanos = e.nanos := by
  rw [Executor.nanos, h.now, Executor.nanos]

theorem wallNow (h : Alike j e f) : f.wallNow = e.wallNow := by
  rw [h.rest]
  rfl

theorem isCancelled
    (h : Alike j e f)
    (t : TokenId) :
    f.isCancelled t = e.isCancelled t := by
  rw [h.rest]
  rfl

theorem signalToken
    (h : Alike j e f)
    (s : SignalId) :
    f.signalToken s = e.signalToken s := by
  rw [h.rest]
  rfl

theorem trackers (h : Alike j e f) : f.trackers = e.trackers := by
  rw [h.rest]

theorem dispatched (h : Alike j e f) : f.dispatched = e.dispatched := by
  rw [h.rest]

theorem runs (h : Alike j e f) : f.runs = e.runs := by
  rw [h.rest]

theorem timers (h : Alike j e f) : f.timers = e.timers := by
  rw [h.rest]

theorem running (h : Alike j e f) : f.running = e.running := by
  rw [h.rest]

/-- Jobs at one place are alike. -/
theorem map_bare
    (h : Alike j e f)
    (i : JobId) :
    (f.jobs[i]?).map Job.bare = (e.jobs[i]?).map Job.bare := by
  obtain @⟨jobs, same⟩ := h
  have hi := congrArg (fun jobs => jobs[i]?) same
  simp only [List.getElem?_modify] at hi
  show (jobs[i]?).map Job.bare = _
  by_cases hj : j = i
  · simpa [hj] using hi
  · simp only [if_neg hj] at hi
    rw [show jobs[i]? = e.jobs[i]? by simpa using hi]

theorem job
    (h : Alike j e f)
    {i : JobId}
    {job : Job}
    (hjob : e.jobs[i]? = some job) :
    ∃ job', f.jobs[i]? = some job' ∧ job'.bare = job.bare := by
  have hi := h.map_bare i
  rw [hjob, Option.map_some] at hi
  exact Option.map_eq_some_iff.1 hi

theorem noJob
    (h : Alike j e f)
    {i : JobId}
    (hjob : e.jobs[i]? = none) :
    f.jobs[i]? = none := by
  have hi := h.map_bare i
  rw [hjob, Option.map_none] at hi
  exact Option.map_eq_none_iff.1 hi

theorem length_jobs (h : Alike j e f) : f.jobs.length = e.jobs.length := by
  obtain ⟨same⟩ := h
  simpa using congrArg List.length same

/-- What is read off the tasks is the same. -/
theorem map_task
    (h : Alike j e f)
    (i : JobId) :
    (f.jobs[i]?).map Job.task = (e.jobs[i]?).map Job.task := by
  have hi := congrArg (Option.map Job.task) (h.map_bare i)
  simpa only [Option.map_map, Function.comp_def, Job.task_bare] using hi

theorem jobKey
    (h : Alike j e f)
    (i : JobId) :
    f.jobKey i = e.jobKey i := by
  have hi := congrArg (Option.map Task.key) (h.map_task i)
  simp only [Option.map_map, Function.comp_def] at hi
  simp only [Executor.jobKey, hi]

theorem jobContext
    (h : Alike j e f)
    (i : JobId) :
    f.jobContext i = e.jobContext i := by
  have hi := congrArg (Option.map Task.context) (h.map_task i)
  simp only [Option.map_map, Function.comp_def] at hi
  simp only [Executor.jobContext, hi]

theorem layer
    (h : Alike j e f)
    (i : JobId)
    (d : Nat) :
    (f.layer? i d).map Layer.bare = (e.layer? i d).map Layer.bare := by
  unfold layer?
  cases hjob : e.jobs[i]? with
  | none => rw [h.noJob hjob]
  | some job =>
      obtain ⟨job', hjob', hbare⟩ := h.job hjob
      have hd := congrArg (fun layers => layers[d]?) (Job.layers_of_bare hbare)
      simpa [hjob'] using hd

/-- The lock at a place is the same. -/
theorem lock
    (h : Alike j e f)
    (i : JobId)
    (d : Nat) :
    (f.layer? i d).bind Layer.lock? = (e.layer? i d).bind Layer.lock? := by
  have hd := congrArg (fun l => l.bind Layer.lock?) (h.layer i d)
  simpa [Option.bind_map, Function.comp_def] using hd

theorem retrySettings
    (h : Alike j e f)
    (run : Run)
    (d : Nat) :
    f.retrySettings run d = e.retrySettings run d := by
  have hd := h.layer run.job d
  unfold Executor.retrySettings
  cases hl : e.layer? run.job d with
  | none =>
      rw [hl, Option.map_none] at hd
      rw [Option.map_eq_none_iff.1 hd]
  | some l =>
      rw [hl, Option.map_some] at hd
      obtain ⟨l', hl', hbare⟩ := Option.map_eq_some_iff.1 hd
      rw [hl']
      cases l <;> cases l' <;> simp [Layer.bare] at hbare ⊢
      exact ⟨hbare.2.1, by rw [hbare.2.2]⟩

theorem holdsLock
    (h : Alike j e f)
    (r : RunId)
    (run : Run) :
    f.holdsLock r run = e.holdsLock r run := by
  have hread : ∀ e : Executor, e.holdsLock r run =
      ((e.layer? run.job run.stack.length).bind Layer.lock?).any (·.holder == some r) := by
    intro e
    unfold Executor.holdsLock
    rcases e.layer? run.job run.stack.length with _ | l
    · rfl
    · cases l <;> rfl
  rw [hread, hread, h.lock]

section Writing

/-- What reads and writes no job does the same to both. -/
theorem apart
    (h : Alike j e f)
    (op : Executor → Executor)
    (free : ∀ jobs, op { e with jobs := jobs } = { op e with jobs := jobs })
    (keeps : (op e).jobs = e.jobs) :
    Alike j (op e) (op f) := by
  obtain @⟨jobs, same⟩ := h
  have hop := free jobs
  rw [hop]
  exact .intro (by rw [keeps, same])

theorem setRun
    (h : Alike j e f)
    (r : RunId)
    (run : Run) :
    Alike j (e.setRun r run) (f.setRun r run) :=
  h.apart (fun e => e.setRun r run) (fun _ => rfl) rfl

theorem note
    (h : Alike j e f)
    (event : Event) :
    Alike j (e.note event) (f.note event) :=
  h.apart (fun e => e.note event) (fun _ => rfl) rfl

theorem noteAll
    (h : Alike j e f)
    (events : List Event) :
    Alike j (e.noteAll events) (f.noteAll events) :=
  h.apart (fun e => e.noteAll events) (fun _ => rfl) rfl

theorem logRun
    (h : Alike j e f)
    (run : Run)
    (frames : List Frame)
    (level : Level)
    (message : String)
    (fields : List (String × String)) :
    Alike j (e.logRun run frames level message fields)
      (f.logRun run frames level message fields) := by
  unfold Executor.logRun
  rw [h.jobKey]
  exact h.note _

theorem setTracker
    (h : Alike j e f)
    (t : TrackerId)
    (tracker : Tracker) :
    Alike j (e.setTracker t tracker) (f.setTracker t tracker) :=
  h.apart (fun e => e.setTracker t tracker) (fun _ => rfl) rfl

theorem enter
    (h : Alike j e f)
    (t : TrackerId) :
    Alike j (e.enter t) (f.enter t) := by
  unfold Executor.enter
  rw [h.trackers]
  split
  · exact h.setTracker t _
  · exact h

theorem leave
    (h : Alike j e f)
    (t : TrackerId) :
    Alike j (e.leave t) (f.leave t) := by
  unfold Executor.leave
  rw [h.trackers]
  split
  · exact h.setTracker t _
  · exact h

/-- What is done to a job may depend on all of it but the outcomes that it keeps. -/
theorem modifyJob
    (h : Alike j e f)
    (i : JobId)
    {g : Job → Job}
    (congr : ∀ job job' : Job, job'.bare = job.bare → (g job').bare = (g job).bare) :
    Alike j (e.modifyJob i g) (f.modifyJob i g) := by
  have hbare := h.map_bare
  obtain @⟨jobs, same⟩ := h
  refine .intro (List.ext_getElem? fun k => ?_)
  show ((jobs.modify i g).modify j Job.bare)[k]? = ((e.jobs.modify i g).modify j Job.bare)[k]?
  have hk := congrArg (fun jobs => jobs[k]?) same
  have hk' : (jobs[k]?).map Job.bare = (e.jobs[k]?).map Job.bare := hbare k
  simp only [List.getElem?_modify] at hk ⊢
  by_cases hj : j = k
  · by_cases hi : i = k
    · cases hjob : e.jobs[k]? with
      | none =>
          rw [hjob, Option.map_none, Option.map_eq_none_iff] at hk'
          rw [hk']
      | some job =>
          rw [hjob, Option.map_some] at hk'
          obtain ⟨job', hjob', hsame⟩ := Option.map_eq_some_iff.1 hk'
          simp [hjob', hj, hi, congr job job' hsame]
    · simpa [hj, hi] using hk'
  · have hplace : jobs[k]? = e.jobs[k]? := by simpa [hj] using hk
    rw [hplace]

theorem setLayer
    (h : Alike j e f)
    (i : JobId)
    (d : Nat)
    (l : Layer) :
    Alike j (e.modifyJob i (·.setLayer d l)) (f.modifyJob i (·.setLayer d l)) :=
  h.modifyJob i fun job job' hbare => by rw [Job.bare_setLayer, Job.bare_setLayer, hbare]

theorem keepLast
    (h : Alike j e f)
    (run : Run)
    (d : Nat)
    (o : Outcome) :
    Alike j (e.keepLast run d o) (f.keepLast run d o) :=
  h.modifyJob run.job fun job job' hbare => by rw [Job.bare_setLast, Job.bare_setLast, hbare]

theorem openSpan
    (h : Alike j e f)
    (tracer : Tracer)
    (name : String)
    (parent : Option SpanRef)
    (tags : List (String × String)) :
    Alike j (e.openSpan tracer name parent tags).1 (f.openSpan tracer name parent tags).1 ∧
      (f.openSpan tracer name parent tags).2 = (e.openSpan tracer name parent tags).2 := by
  obtain ⟨same⟩ := h
  cases tracer <;> exact ⟨.intro same, rfl⟩

theorem attachFailure
    (h : Alike j e f)
    (span : SpanRef)
    (failure : JobFailure) :
    Alike j (e.attachFailure span failure) (f.attachFailure span failure) := by
  obtain ⟨same⟩ := h
  cases span <;> exact .intro same

theorem finishSpan
    (h : Alike j e f)
    (span : SpanRef) :
    Alike j (e.finishSpan span) (f.finishSpan span) := by
  obtain ⟨same⟩ := h
  cases span <;> exact .intro same

theorem release
    (h : Alike j e f)
    (run : Run)
    (d : Nat)
    (frame : Frame) :
    Alike j (e.release run d frame) (f.release run d frame) := by
  cases frame with
  | track t => exact h.leave t
  | skip => exact h.setLayer run.job d _
  | delay =>
      have hread : ∀ e : Executor, e.release run d .delay =
          match (e.layer? run.job d).bind Layer.lock? with
          | some lock => e.modifyJob run.job (·.setLayer d (.delay lock.release))
          | none => e := by
        intro e
        unfold Executor.release
        rcases e.layer? run.job d with _ | l
        · rfl
        · cases l <;> rfl
      rw [hread, hread, h.lock]
      split
      · exact h.setLayer run.job d _
      · exact h
  | recover | retry | trace | tag => exact h

end Writing

section Runs

/-- A guard lets through as much of the one as of the other. -/
theorem forall₂_guarded
    {p : Prop}
    [Decidable p]
    (h : p → Alike j e f) :
    List.Forall₂ (Alike j) (if p then [e] else []) (if p then [f] else []) := by
  split
  · exact .cons (h ‹p›) .nil
  · exact .nil

/-- A run that enters a layer does not look at the outcome that it keeps. -/
theorem enterLayer_bare
    (e : Executor)
    (r : RunId)
    (run : Run)
    (ctx : Context)
    (l : Layer) :
    e.enterLayer r run ctx l.bare = e.enterLayer r run ctx l := by
  cases l <;> rfl

theorem noteEnd
    (h : Alike j e f)
    (run : Run)
    (frames : List Frame)
    (o : Outcome) :
    Alike j (e.noteEnd run frames o) (f.noteEnd run frames o) := by
  have hcount : Alike j (e.count (.runDurations (e.jobKey run.job)))
      (f.count (.runDurations (e.jobKey run.job))) := h.note _
  unfold Executor.noteEnd
  rw [h.jobKey]
  cases o with
  | ok => exact hcount.keepLast run _ _
  | err failure =>
      obtain ⟨message, kind⟩ := failure
      cases kind with
      | panicked => exact hcount.keepLast run _ _
      | failed =>
          refine Alike.keepLast ?_ run _ _
          exact Alike.logRun (hcount.note _) run frames _ _ _

theorem attemptEnded
    (h : Alike j e f)
    (r : RunId)
    (run : Run)
    (frames : List Frame)
    (shutdown : TokenId)
    (ctx : Context)
    (repeated : Nat)
    (due : Option Nat)
    (o : Outcome) :
    Alike j (e.attemptEnded r run frames shutdown ctx repeated due o)
      (f.attemptEnded r run frames shutdown ctx repeated due o) := by
  unfold Executor.attemptEnded
  dsimp only
  rw [h.retrySettings, h.nanos]
  split
  · exact h.setRun r _
  · exact (h.keepLast run _ _).setRun r _
  · split
    · exact ((h.logRun run frames _ _ _).keepLast run _ _).setRun r _
    · exact h.setRun r _

theorem leaveFrame
    (h : Alike j e f)
    (r : RunId)
    (run : Run)
    (frame : Frame)
    (frames : List Frame)
    (o : Outcome) :
    Alike j (e.leaveFrame r run frame frames o) (f.leaveFrame r run frame frames o) := by
  cases frame with
  | recover => exact (h.noteEnd run frames o).setRun r _
  | retry shutdown ctx repeated due =>
      exact h.attemptEnded r run frames shutdown ctx repeated due o
  | trace span =>
      cases o with
      | ok => exact (h.finishSpan span).setRun r _
      | err failure => exact ((h.attachFailure span failure).finishSpan span).setRun r _
  | tag name =>
      exact h.apart
        (fun e => { e with order := e.order ++ ["exit " ++ name] }.resume r run frames (.leaving o))
        (fun _ => rfl) rfl
  | track t => exact (h.release run _ (.track t)).setRun r _
  | skip => exact (h.release run _ .skip).setRun r _
  | delay => exact (h.release run _ .delay).setRun r _

theorem unwindFrame
    (h : Alike j e f)
    (r : RunId)
    (run : Run)
    (frame : Frame)
    (frames : List Frame)
    (p : Payload) :
    Alike j (e.unwindFrame r run frame frames p) (f.unwindFrame r run frame frames p) := by
  have hrelease := fun frame => (h.release run frames.length frame).setRun r
    { run with stack := frames, control := .unwinding p }
  cases frame with
  | recover =>
      unfold Executor.unwindFrame
      rw [h.jobKey]
      refine Alike.setRun (Alike.noteEnd ?_ run frames _) r _
      exact Alike.logRun (h.note _) run frames _ _ _
  | track t => exact hrelease (.track t)
  | retry shutdown ctx repeated due => exact hrelease (.retry shutdown ctx repeated due)
  | skip => exact hrelease .skip
  | delay => exact hrelease .delay
  | trace span => exact hrelease (.trace span)
  | tag name => exact hrelease (.tag name)

theorem finishRun
    (h : Alike j e f)
    (r : RunId)
    (run : Run)
    (c : Control) :
    Alike j (e.finishRun r run c) (f.finishRun r run c) := by
  unfold Executor.finishRun
  cases run.counted with
  | none =>
      dsimp only
      rw [h.now]
      exact h.setRun r _
  | some t =>
      dsimp only
      rw [(h.leave t).now]
      exact (h.leave t).setRun r _

theorem endCall
    (h : Alike j e f)
    (r : RunId)
    (run : Run)
    (a : Attempt)
    (call : Nat) :
    Alike j (e.endCall r run a call) (f.endCall r run a call) := by
  have hended : Alike j
      { e with calls := e.calls.modify call fun c => { c with finished := some e.now } }
      { f with calls := f.calls.modify call fun c => { c with finished := some f.now } } :=
    h.apart
      (fun e => { e with calls := e.calls.modify call fun c => { c with finished := some e.now } })
      (fun _ => rfl) rfl
  have hanswered : ∀ o, ∀ job job' : Job, job'.bare = job.bare →
      (job'.answered o).bare = (job.answered o).bare := by
    intro o job job' hbare
    have htask := Job.task_of_bare hbare
    have hlayers := Job.layers_of_bare hbare
    simp only [Job.bare, Job.answered, htask, hlayers]
  unfold Executor.endCall
  cases a.ending with
  | succeed => exact (hended.modifyJob run.job (hanswered .ok)).setRun r _
  | fail message =>
      exact (hended.modifyJob run.job (hanswered (.err (.failed message)))).setRun r _
  | panic payload => exact hended.setRun r _

theorem callTask
    (h : Alike j e f)
    (r : RunId)
    (run : Run)
    (ctx : Context)
    (task : Task) :
    Alike j (e.callTask r run ctx task) (f.callTask r run ctx task) := by
  have hcounted : Alike j
      (e.modifyJob run.job fun job => { job with task := { task with calls := task.calls + 1 } })
      (f.modifyJob run.job fun job =>
        { job with task := { task with calls := task.calls + 1 } }) := by
    refine h.modifyJob run.job fun job job' hbare => ?_
    have hlayers := Job.layers_of_bare hbare
    simp only [Job.bare, hlayers]
  have hbegin : ∀ {e f : Executor}, Alike j e f → ∀ a call,
      Alike j (beginCall e r run a call ctx) (beginCall f r run a call ctx) := by
    intro e f h a call
    obtain ⟨same⟩ := h
    unfold beginCall
    cases a.sleep <;> exact .intro same
  obtain ⟨same⟩ := h
  exact hbegin (hcounted.apart (fun e' => { e' with calls := e'.calls ++ [_] })
    (fun _ => rfl) rfl) _ _

theorem enterLayer
    (h : Alike j e f)
    (r : RunId)
    (run : Run)
    (ctx : Context)
    (l : Layer) :
    Alike j (e.enterLayer r run ctx l) (f.enterLayer r run ctx l) := by
  cases l with
  | recover last => exact h.setRun r _
  | track t => exact (h.enter t).setRun r _
  | retry signal limit interval last =>
      unfold Executor.enterLayer
      dsimp only
      rw [h.signalToken]
      exact h.setRun r _
  | skip running =>
      cases running with
      | true =>
          unfold Executor.enterLayer
          dsimp only
          rw [h.jobKey]
          exact (Alike.logRun (h.note _) run run.stack _ _ _).setRun r _
      | false => exact (h.setLayer run.job _ _).setRun r _
  | delay lock =>
      obtain ⟨holder, queue⟩ := lock
      cases holder with
      | none => exact (h.setLayer run.job _ _).setRun r _
      | some holder => exact h.setRun r _
  | trace tracer =>
      unfold Executor.enterLayer
      dsimp only
      rw [h.jobKey]
      obtain ⟨hopen, hspan⟩ :=
        h.openSpan tracer "cron_job" (parentSpan tracer ctx run.stack) [("key", e.jobKey run.job)]
      rw [hspan]
      exact hopen.setRun r _
  | tag name =>
      exact h.apart
        (fun e => { e with order := e.order ++ ["enter " ++ name] }.push r run (.tag name)
          (.entering ctx))
        (fun _ => rfl) rfl

theorem goIn
    (h : Alike j e f)
    (r : RunId)
    (run : Run)
    (ctx : Context) :
    Alike j (e.goIn r run ctx) (f.goIn r run ctx) :=
  (h.logRun run run.stack _ _ _).setRun r _

theorem joinQueue
    (h : Alike j e f)
    (r : RunId)
    (run : Run)
    (ctx : Context)
    (lock : Lock) :
    Alike j (e.joinQueue r run ctx lock) (f.joinQueue r run ctx lock) := by
  unfold Executor.joinQueue
  cases lock.holder with
  | none => exact (h.setLayer run.job _ _).goIn r run ctx
  | some holder => exact (h.setLayer run.job _ _).setRun r _

theorem joinMoves
    (h : Alike j e f)
    (r : RunId)
    (run : Run)
    (ctx : Context) :
    List.Forall₂ (Alike j) (e.joinMoves r run ctx) (f.joinMoves r run ctx) := by
  have hread : ∀ e : Executor, e.joinMoves r run ctx =
      match (e.layer? run.job run.stack.length).bind Layer.lock? with
      | some lock => [e.joinQueue r run ctx lock]
      | none => [] := by
    intro e
    unfold Executor.joinMoves
    rcases e.layer? run.job run.stack.length with _ | l
    · rfl
    · cases l <;> rfl
  rw [hread, hread, h.lock]
  split
  · exact .cons (h.joinQueue r run ctx _) .nil
  · exact .nil

theorem repeatAttempt
    (h : Alike j e f)
    (r : RunId)
    (run : Run)
    (frames : List Frame)
    (shutdown : TokenId)
    (ctx : Context)
    (repeated due : Nat)
    (failure : JobFailure) :
    Alike j (e.repeatAttempt r run frames shutdown ctx repeated due failure)
      (f.repeatAttempt r run frames shutdown ctx repeated due failure) := by
  unfold Executor.repeatAttempt
  dsimp only
  rw [h.retrySettings, h.jobKey, h.nanos]
  exact (Alike.logRun (h.note _) run frames _ _ _).setRun r _

theorem stopRepeating
    (h : Alike j e f)
    (r : RunId)
    (run : Run)
    (frames : List Frame)
    (repeated : Nat)
    (failure : JobFailure)
    (reason : String) :
    Alike j (e.stopRepeating r run frames repeated failure reason)
      (f.stopRepeating r run frames repeated failure reason) :=
  ((h.logRun run frames _ _ _).keepLast run _ _).setRun r _

theorem pauseMoves
    (h : Alike j e f)
    (r : RunId)
    (run : Run)
    (failure : JobFailure) :
    List.Forall₂ (Alike j) (e.pauseMoves r run failure) (f.pauseMoves r run failure) := by
  unfold Executor.pauseMoves
  split
  · rename_i shutdown ctx repeated due frames stack
    rw [h.nanos, h.isCancelled, h.isCancelled]
    refine List.rel_append (List.rel_append ?_ ?_) ?_
    · exact forall₂_guarded fun _ => h.repeatAttempt r run frames shutdown ctx repeated due failure
    · exact forall₂_guarded fun _ => h.stopRepeating r run frames repeated failure _
    · exact forall₂_guarded fun _ => h.stopRepeating r run frames repeated failure _
  · exact .nil

theorem runMoves
    (h : Alike j e f)
    (r : RunId) :
    List.Forall₂ (Alike j) (e.runMoves r) (f.runMoves r) := by
  have hone : ∀ {e f : Executor}, Alike j e f → List.Forall₂ (Alike j) [e] [f] :=
    fun h => .cons h .nil
  unfold Executor.runMoves
  rw [h.runs]
  cases e.runs[r]? with
  | none => exact .nil
  | some run =>
      dsimp only
      split
      · cases hjob : e.jobs[run.job]? with
        | none =>
            rw [h.noJob hjob]
            exact .nil
        | some job =>
            obtain ⟨job', hjob', hbare⟩ := h.job hjob
            have hlayers := congrArg (fun layers => layers[run.stack.length]?)
              (Job.layers_of_bare hbare)
            simp only [List.getElem?_map] at hlayers
            rw [hjob']
            dsimp only
            cases hl : job.layers[run.stack.length]? with
            | none =>
                rw [hl, Option.map_none, Option.map_eq_none_iff] at hlayers
                rw [hlayers, Job.task_of_bare hbare]
                exact hone (h.callTask r run _ _)
            | some l =>
                rw [hl, Option.map_some] at hlayers
                obtain ⟨l', hl', hsame⟩ := Option.map_eq_some_iff.1 hlayers
                rw [hl']
                dsimp only
                rw [← enterLayer_bare f, hsame, enterLayer_bare]
                exact hone (h.enterLayer r run _ l)
      · exact h.joinMoves r run _
      · rw [h.holdsLock]
        exact forall₂_guarded fun _ => h.goIn r run _
      · rw [h.now]
        exact forall₂_guarded fun _ => h.setRun r _
      · rw [h.isCancelled]
        exact forall₂_guarded fun _ => h.setRun r _
      · exact hone (h.endCall r run _ _)
      · exact h.pauseMoves r run _
      · split
        · exact hone (h.leaveFrame r run _ _ _)
        · exact hone (h.finishRun r run _)
      · split
        · exact hone (h.unwindFrame r run _ _ _)
        · exact hone (h.finishRun r run _)
      all_goals exact .nil

end Runs

section Others

theorem setTimer
    (h : Alike j e f)
    (n : Nat)
    (t : Timer) :
    Alike j (e.setTimer n t) (f.setTimer n t) :=
  h.apart (fun e => e.setTimer n t) (fun _ => rfl) rfl

theorem spawn
    (h : Alike j e f)
    (i : JobId)
    (ctx : Context)
    (counted : Option TrackerId) :
    Alike j (e.spawn i ctx counted) (f.spawn i ctx counted) :=
  h.apart (fun e => e.spawn i ctx counted) (fun _ => rfl) rfl

theorem askTimer
    (h : Alike j e f)
    (n : Nat)
    (t : Timer) :
    Alike j (e.askTimer n t) (f.askTimer n t) := by
  have hnoted := h.noteAll (t.schedule.next t.previous).events
  unfold Executor.askTimer
  dsimp only
  split
  · exact hnoted.setTimer n _
  · rw [hnoted.jobKey]
    exact (hnoted.note _).setTimer n _
  · rw [hnoted.nanos, hnoted.wallNow]
    exact hnoted.setTimer n _

theorem checkTimer
    (h : Alike j e f)
    (n : Nat)
    (t : Timer)
    (i : Instant) :
    Alike j (e.checkTimer n t i) (f.checkTimer n t i) := by
  unfold Executor.checkTimer
  rw [h.running, h.dispatched, h.wallNow]
  split
  · exact (h.enter _).setTimer n _
  · exact h.setTimer n _

theorem activate
    (h : Alike j e f)
    (n : Nat)
    (t : Timer) :
    Alike j (e.activate n t) (f.activate n t) := by
  have hcount : Alike j (e.count (.activations (e.jobKey t.job)))
      (f.count (.activations (e.jobKey t.job))) := h.note _
  unfold Executor.activate
  dsimp only
  rw [h.jobKey, hcount.jobContext, hcount.dispatched]
  exact (hcount.setTimer n _).spawn _ _ _

theorem timerMoves
    (h : Alike j e f)
    (n : Nat) :
    List.Forall₂ (Alike j) (e.timerMoves n) (f.timerMoves n) := by
  have hone : ∀ {e f : Executor}, Alike j e f → List.Forall₂ (Alike j) [e] [f] :=
    fun h => .cons h .nil
  unfold Executor.timerMoves
  rw [h.timers]
  cases e.timers[n]? with
  | none => exact .nil
  | some t =>
      dsimp only
      split
      · exact .nil
      · rw [h.wallNow]
        exact hone (h.setTimer n _)
      · rw [h.running]
        exact hone (h.setTimer n _)
      · rw [h.isCancelled, h.running, h.wallNow]
        split
        · exact hone (h.setTimer n _)
        · split
          · exact hone (h.setTimer n _)
          · exact .nil
      · exact hone (h.askTimer n t)
      · unfold Executor.armedMoves
        rw [h.isCancelled, h.nanos]
        exact List.rel_append (forall₂_guarded fun _ => h.setTimer n _)
          (forall₂_guarded fun _ => h.setTimer n _)
      · exact hone (h.checkTimer n t _)
      · exact hone (h.activate n t)
      · exact .nil

theorem waiterMoves
    (h : Alike j e f)
    (n : Nat) :
    List.Forall₂ (Alike j) (e.waiterMoves n) (f.waiterMoves n) := by
  obtain ⟨same⟩ := h
  unfold Executor.waiterMoves
  dsimp only
  cases e.waiters[n]? with
  | none => exact .nil
  | some w =>
      dsimp only
      split
      · exact .nil
      · exact forall₂_guarded fun _ => .intro same
      · refine .cons (Alike.noteAll ?_ _) .nil
        exact .intro same

/-- **Every move of the one is a move of the other.** -/
theorem moves
    (h : Alike j e f)
    (m : Mover) :
    List.Forall₂ (Alike j) (e.moves m) (f.moves m) := by
  cases m with
  | run r => exact h.runMoves r
  | timer n => exact h.timerMoves n
  | waiter n => exact h.waiterMoves n

theorem cancel
    (h : Alike j e f)
    (t : TokenId) :
    Alike j (e.cancel t) (f.cancel t) :=
  h.apart (fun e => e.cancel t) (fun _ => rfl) rfl

theorem rearm
    (h : Alike j e f)
    (s : SignalId) :
    Alike j (e.rearm s) (f.rearm s) := by
  have hrearmed := h.apart
    (fun e => { e.freshToken.1 with signals := e.freshToken.1.signals.set s e.freshToken.2 })
    (fun _ => rfl) rfl
  unfold Executor.rearm Executor.isTriggered
  rw [h.signalToken, h.isCancelled]
  split
  · exact hrearmed
  · exact h

theorem close
    (h : Alike j e f)
    (n : Nat) :
    Alike j (e.close n) (f.close n) := by
  unfold Executor.close
  rw [h.timers]
  split
  · exact h
  · exact (h.setTimer n _).cancel _

/-- A new job is the same one in both. -/
theorem addJob
    (h : Alike j e f)
    (c : Chain)
    (key : String)
    (value : Value)
    (script : Script) :
    Alike j (e.addJob c key value script).1 (f.addJob c key value script).1 := by
  have hlength := h.length_jobs
  obtain @⟨jobs, same⟩ := h
  refine .intro ?_
  show (jobs ++ [_]).modify j Job.bare = (e.jobs ++ [_]).modify j Job.bare
  refine List.ext_getElem? fun k => ?_
  have hk := congrArg (fun jobs => jobs[k]?) same
  simp only [List.getElem?_modify] at hk ⊢
  have hlength' : jobs.length = e.jobs.length := hlength
  by_cases hlt : k < e.jobs.length
  · rw [List.getElem?_append_left hlt, List.getElem?_append_left (hlength'.symm ▸ hlt)]
    exact hk
  · have hle := Nat.le_of_not_lt hlt
    rw [List.getElem?_append_right hle, List.getElem?_append_right (hlength'.symm ▸ hle), hlength']

end Others

/-- What stands in one list stands in the other. -/
theorem exists_of_forall₂
    {l l' : List Executor}
    (h : List.Forall₂ (Alike j) l l')
    {e : Executor}
    (he : e ∈ l) :
    ∃ f ∈ l', Alike j e f := by
  induction h with
  | nil => cases he
  | cons hfirst _ ih =>
      rcases List.mem_cons.1 he with rfl | he
      · exact ⟨_, List.mem_cons_self, hfirst⟩
      · obtain ⟨f, hf, halike⟩ := ih he
        exact ⟨f, List.mem_cons_of_mem _ hf, halike⟩

theorem drift
    {e' : Executor}
    (h : Alike j e f)
    (drift : e.Drift e') :
    ∃ f', f.Drift f' ∧ Alike j e' f' := by
  cases drift with
  | move m hmem =>
      obtain ⟨f', hf', halike⟩ := exists_of_forall₂ (h.moves m) hmem
      exact ⟨f', .move m hf', halike⟩
  | exhaust n =>
      exact ⟨_, .exhaust n, h.apart (fun e => e.exhaust n) (fun _ => rfl) rfl⟩
  | clock now =>
      exact ⟨_, .clock now, h.apart (fun e => e.setClock now) (fun _ => rfl) rfl⟩
  | line ready waiting =>
      exact ⟨_, .line ready waiting,
        h.apart (fun e => { e with ready := ready, waiting := waiting }) (fun _ => rfl) rfl⟩
  | note event => exact ⟨_, .note event, h.note event⟩
  | wait trackers farewell =>
      exact ⟨_, .wait trackers farewell, h.apart
        (fun e => { e with waiters := e.waiters ++ [⟨trackers, farewell, e.now, none⟩] })
        (fun _ => rfl) rfl⟩
  | launch i ctx => exact ⟨_, .launch i ctx, h.spawn i ctx none⟩

theorem change
    {c : Chain}
    {e' : Executor}
    (h : Alike j e f)
    (change : Change c e e') :
    ∃ f', Change c f f' ∧ Alike j e' f' := by
  cases change with
  | drift hdrift =>
      obtain ⟨f', hf', halike⟩ := h.drift hdrift
      exact ⟨f', .drift hf', halike⟩
  | giveUp n => exact ⟨_, .giveUp n, h.apart (fun e => e.giveUp n) (fun _ => rfl) rfl⟩
  | close n => exact ⟨_, .close n, h.close n⟩
  | trigger s => exact ⟨_, .trigger s, h.apart (fun e => e.trigger s) (fun _ => rfl) rfl⟩
  | rearm s => exact ⟨_, .rearm s, h.rearm s⟩
  | stopEngine => exact ⟨_, .stopEngine, h.apart stopEngine (fun _ => rfl) rfl⟩
  | addJob key value script =>
      exact ⟨_, .addJob key value script, h.addJob c key value script⟩
  | arm s i driven =>
      exact ⟨_, .arm s i driven, h.apart (fun e => (e.arm s i driven).1) (fun _ => rfl) rfl⟩

theorem befalls
    {e' : Executor}
    (h : Alike j e f)
    (befalls : e.Befalls e') :
    ∃ f', f.Befalls f' ∧ Alike j e' f' := by
  cases befalls with
  | cancel t => exact ⟨_, .cancel t, h.cancel t⟩
  | act hact =>
      cases hact with
      | change hchange =>
          obtain ⟨f', hf', halike⟩ := h.change hchange
          exact ⟨f', .act (.change hf'), halike⟩
      | startEngine =>
          exact ⟨_, .act (c := []) .startEngine, h.apart startEngine (fun _ => rfl) rfl⟩

/-- **Whatever befalls the one may befall the other.** -/
theorem befell
    {e' : Executor}
    (h : Alike j e f)
    (befell : e.Befell e') :
    ∃ f', f.Befell f' ∧ Alike j e' f' := by
  induction befell with
  | refl => exact ⟨f, .refl, h⟩
  | tail _ hbefalls ih =>
      obtain ⟨f₁, hf₁, halike⟩ := ih
      obtain ⟨f', hf', halike'⟩ := halike.befalls hbefalls
      exact ⟨f', hf₁.tail hf', halike'⟩

end Alike

end Executor

end Timetable
