import Timetable.Executor

/-!
# How a run moves

A run goes down through the layers of its job, each of which it leaves behind as
a frame on its stack, makes a call of the task, and comes back up through the
frames with an outcome or by unwinding.  The number of frames is the number of
layers entered, so the frames of a stack belong to the first layers of the job.

A move is one step of this way.  A run that cannot move waits for the clock, for
a lock, or for a cancellation.  Where it waits for several things at once and
more than one has happened, each of them is a possible move; so the moves of a
run form a list.
-/

namespace Timetable
namespace Executor

/-- The number of the innermost span of the log among frames. -/
def innermostSpan : List Frame → Option Nat
  | [] => none
  | .trace (.logged n) :: _ => some n
  | _ :: frames => innermostSpan frames

/-- The span below which a tracer opens the next one: that of the context.  A tracer of the log
that finds a span of another kind there stays below the innermost span of the log. -/
def parentSpan (tracer : Tracer) (ctx : Context) (frames : List Frame) : Option SpanRef :=
  match tracer with
  | .logging => ((ctx.span.bind SpanRef.logged?).or (innermostSpan frames)).map .logged
  | _ => ctx.span

/-- The layer at a depth of a job. -/
def layer? (e : Executor) (j : JobId) (depth : Nat) : Option Layer :=
  (e.jobs[j]?).bind fun job => job.layers[depth]?

/-- The run with another control. -/
def control (e : Executor) (r : RunId) (run : Run) (c : Control) : Executor :=
  e.setRun r { run with control := c }

/-- The run with one more frame and another control. -/
def push (e : Executor) (r : RunId) (run : Run) (f : Frame) (c : Control) : Executor :=
  e.setRun r { run with stack := f :: run.stack, control := c }

/-- The run with other frames and another control. -/
def resume (e : Executor) (r : RunId) (run : Run) (frames : List Frame) (c : Control) :
    Executor :=
  e.setRun r { run with stack := frames, control := c }

/-- A line of the log about the job of a run, inside the spans of some frames. -/
def logRun (e : Executor) (run : Run) (frames : List Frame) (level : Level)
    (message : String) (fields : List (String × String)) : Executor :=
  e.log level message (("key", e.jobKey run.job) :: fields) (innermostSpan frames)

/-- The run of a call begins to do what the attempt says. -/
def beginCall (e : Executor) (r : RunId) (run : Run) (a : Attempt) (call : Nat)
    (ctx : Context) : Executor :=
  match a.sleep with
  | some n => e.control r run (.asleep (e.now + n) a call ctx)
  | none => e.control r run (.held a call ctx)

/-- Call a task. -/
def callTask (e : Executor) (r : RunId) (run : Run) (ctx : Context) (task : Task) : Executor :=
  let call : Call :=
    { job := run.job, key := task.key, value := task.value, started := e.now
      cancelled := e.isCancelled ctx.token, span := ctx.span.bind SpanRef.recorded? }
  let counted := e.modifyJob run.job fun job =>
    { job with task := { task with calls := task.calls + 1 } }
  beginCall { counted with calls := counted.calls ++ [call] } r run
    (task.script task.calls e.calls.length) e.calls.length ctx

/-- Enter a layer. -/
def enterLayer (e : Executor) (r : RunId) (run : Run) (ctx : Context) (l : Layer) : Executor :=
  let depth := run.stack.length
  match l with
  | .recover _ => e.push r run .recover (.entering ctx)
  | .track t => (e.enter t).push r run (.track t) (.entering ctx)
  | .retry signal _ _ _ =>
      e.push r run (.retry (e.signalToken signal) ctx 0 none) (.entering ctx)
  | .skip true =>
      ((e.count (.skips (e.jobKey run.job))).logRun run run.stack .debug
        "Previous run still in progress, skipping" []).control r run (.leaving .ok)
  | .skip false =>
      (e.modifyJob run.job (·.setLayer depth (.skip true))).push r run .skip (.entering ctx)
  | .delay lock =>
      match lock.holder with
      | none =>
          (e.modifyJob run.job (·.setLayer depth (.delay { lock with holder := some r }))).push
            r run .delay (.entering ctx)
      | some _ => e.control r run (.joining ctx)
  | .trace tracer =>
      let (e, span) := e.openSpan tracer "cron_job" (parentSpan tracer ctx run.stack)
        [("key", e.jobKey run.job)]
      e.push r run (.trace span) (.entering { ctx with span := some span })
  | .tag name =>
      { e with order := e.order ++ ["enter " ++ name] }.push r run (.tag name) (.entering ctx)

/-- A run that has waited for a lock, or found it free at last, goes in. -/
def goIn (e : Executor) (r : RunId) (run : Run) (ctx : Context) : Executor :=
  (e.logRun run run.stack .debug "Delayed until previous run finished" []).push r run .delay
    (.entering ctx)

/-- Join the queue of a lock that has been found taken.  Between the look at the lock and this
others may have moved: a lock that is free by now is taken. -/
def joinQueue (e : Executor) (r : RunId) (run : Run) (ctx : Context) (lock : Lock) : Executor :=
  let set (lock : Lock) := e.modifyJob run.job (·.setLayer run.stack.length (.delay lock))
  match lock.holder with
  | none => (set { lock with holder := some r }).goIn r run ctx
  | some _ => (set (lock.join r)).control r run (.queued ctx)

/-- The lock of a queued run has come to it. -/
def holdsLock (e : Executor) (r : RunId) (run : Run) : Bool :=
  match e.layer? run.job run.stack.length with
  | some (.delay lock) => lock.holder == some r
  | _ => false

/-- Give up what the layer of a frame holds. -/
def release (e : Executor) (run : Run) (depth : Nat) (f : Frame) : Executor :=
  match f with
  | .track t => e.leave t
  | .skip => e.modifyJob run.job (·.setLayer depth (.skip false))
  | .delay =>
      match e.layer? run.job depth with
      | some (.delay lock) => e.modifyJob run.job (·.setLayer depth (.delay lock.release))
      | _ => e
  | _ => e

/-- Keep an outcome in a layer. -/
def keepLast (e : Executor) (run : Run) (depth : Nat) (o : Outcome) : Executor :=
  e.modifyJob run.job (·.setLast depth o)

/-- The fault barrier notes the end of a run. -/
def noteEnd (e : Executor) (run : Run) (frames : List Frame) (o : Outcome) : Executor :=
  let key := e.jobKey run.job
  let e := e.count (.runDurations key)
  let e := match o with
    | .ok => e
    | .err f =>
        match f.kind with
        | .panicked => e
        | .failed =>
            (e.count (.failures key)).logRun run frames .debug "Job run failed"
              [("error", f.display)]
  e.keepLast run frames.length o

/-- No repetition is left. -/
def exhausted (limit : Int) (repeated : Nat) : Bool :=
  decide (0 ≤ limit ∧ limit ≤ repeated)

/-- The limit and the interval of the layer of a repeating frame, in nanoseconds. -/
def retrySettings (e : Executor) (run : Run) (depth : Nat) : Int × Nat :=
  match e.layer? run.job depth with
  | some (.retry _ limit interval _) => (limit, interval.nanos)
  | _ => (0, 0)

/-- Seconds that the clock never reaches. -/
def clockLimit : Nat := twoTo 63

/-- What a run carries that counts beyond the clock. -/
def clockOverflow : Payload :=
  .text "overflow when adding duration to instant"

/-- When the first repetition is due, if the clock gets there: an interval after the end of
the first attempt. -/
def firstTick? (now interval : Nat) : Option Nat :=
  if now + interval < clockLimit * nanosPerSecond then some (now + interval) else none

/-- An attempt inside a repeating frame has ended. -/
def attemptEnded (e : Executor) (r : RunId) (run : Run) (frames : List Frame)
    (shutdown : TokenId) (ctx : Context) (repeated : Nat) (due : Option Nat) (o : Outcome) :
    Executor :=
  let depth := frames.length
  let (limit, interval) := e.retrySettings run depth
  match due.or (firstTick? e.nanos interval), o with
  | none, _ => e.resume r run frames (.unwinding clockOverflow)
  | some _, .ok => (e.keepLast run depth o).resume r run frames (.leaving o)
  | some due, .err f =>
      if exhausted limit repeated then
        ((e.logRun run frames .warn "Retries exhausted"
          [("retries", Text.numeral repeated), ("error", f.display)]).keepLast run depth o).resume
            r run frames (.leaving o)
      else
        e.resume r run (.retry shutdown ctx repeated (some due) :: frames) (.pausing f)

/-- Hand an outcome to a frame. -/
def leaveFrame (e : Executor) (r : RunId) (run : Run) (f : Frame) (frames : List Frame)
    (o : Outcome) : Executor :=
  match f with
  | .recover => (e.noteEnd run frames o).resume r run frames (.leaving o)
  | .retry shutdown ctx repeated due =>
      e.attemptEnded r run frames shutdown ctx repeated due o
  | .trace span =>
      let e := match o with
        | .ok => e
        | .err f => e.attachFailure span f
      (e.finishSpan span).resume r run frames (.leaving o)
  | .tag name =>
      { e with order := e.order ++ ["exit " ++ name] }.resume r run frames (.leaving o)
  | f => (e.release run frames.length f).resume r run frames (.leaving o)

/-- Unwind a frame; the fault barrier stops the unwinding. -/
def unwindFrame (e : Executor) (r : RunId) (run : Run) (f : Frame) (frames : List Frame)
    (p : Payload) : Executor :=
  match f with
  | .recover =>
      let o := Outcome.err (.panicked p.message)
      let e := (e.count (.panics (e.jobKey run.job))).logRun run frames .error "Job panicked"
        [("panic", p.message)]
      (e.noteEnd run frames o).resume r run frames (.leaving o)
  | f => (e.release run frames.length f).resume r run frames (.unwinding p)

/-- The run is over. -/
def finishRun (e : Executor) (r : RunId) (run : Run) (c : Control) : Executor :=
  let e := match run.counted with
    | some t => e.leave t
    | none => e
  e.setRun r { run with control := c, finished := some e.now }

/-- A call ends, and its outcome is kept by the task unless it unwinds. -/
def endCall (e : Executor) (r : RunId) (run : Run) (a : Attempt) (call : Nat) : Executor :=
  let e := { e with calls := e.calls.modify call fun c => { c with finished := some e.now } }
  let keep (o : Outcome) := (e.modifyJob run.job fun job =>
    { job with task := { job.task with last := some o } }).control r run (.leaving o)
  match a.ending with
  | .succeed => keep .ok
  | .fail message => keep (.err (.failed message))
  | .panic payload => e.control r run (.unwinding payload)

/-- A tick observed more than five milliseconds late is followed by the next one a whole
interval later; otherwise ticks keep their pace. -/
def nextTick (now due interval : Nat) : Nat :=
  if due + 5 * nanosPerMilli < now then now + interval else due + interval

/-- Repeat a failed attempt. -/
def repeatAttempt (e : Executor) (r : RunId) (run : Run) (frames : List Frame)
    (shutdown : TokenId) (ctx : Context) (repeated due : Nat) (f : JobFailure) : Executor :=
  let interval := (e.retrySettings run frames.length).2
  let next := nextTick e.nanos due interval
  ((e.count (.retries (e.jobKey run.job))).logRun run frames .debug "Retrying job"
    [("attempt", Text.numeral (repeated + 1)), ("error", f.display)]).resume r run
      (.retry shutdown ctx (repeated + 1) (some next) :: frames) (.entering ctx)

/-- Stop repeating because of a cancellation. -/
def stopRepeating (e : Executor) (r : RunId) (run : Run) (frames : List Frame)
    (repeated : Nat) (f : JobFailure) (reason : String) : Executor :=
  ((e.logRun run frames .debug ("Retry cancelled by " ++ reason)
    [("retries", Text.numeral repeated)]).keepLast run frames.length (.err f)).resume r run
      frames (.leaving (.err f))

/-- The move of a run that has found the next layer's lock taken. -/
def joinMoves (e : Executor) (r : RunId) (run : Run) (ctx : Context) : List Executor :=
  match e.layer? run.job run.stack.length with
  | some (.delay lock) => [e.joinQueue r run ctx lock]
  | _ => []

/-- The moves of a run that pauses between two attempts: the next tick is due, the
shutdown token is cancelled, or the context is. -/
def pauseMoves (e : Executor) (r : RunId) (run : Run) (f : JobFailure) : List Executor :=
  match run.stack with
  | .retry shutdown ctx repeated (some due) :: frames =>
      (if due ≤ e.nanos then [e.repeatAttempt r run frames shutdown ctx repeated due f] else []) ++
      (if e.isCancelled shutdown then
        [e.stopRepeating r run frames repeated f "shutdown"] else []) ++
      (if e.isCancelled ctx.token then
        [e.stopRepeating r run frames repeated f "job context"] else [])
  | _ => []

/-- The moves of a run. -/
def runMoves (e : Executor) (r : RunId) : List Executor :=
  match e.runs[r]? with
  | none => []
  | some run =>
      match run.control with
      | .entering ctx =>
          match e.jobs[run.job]? with
          | none => []
          | some job =>
              match job.layers[run.stack.length]? with
              | some l => [e.enterLayer r run ctx l]
              | none => [e.callTask r run ctx job.task]
      | .joining ctx => e.joinMoves r run ctx
      | .queued ctx => if e.holdsLock r run then [e.goIn r run ctx] else []
      | .asleep wake a call ctx =>
          if wake ≤ e.now then [e.control r run (.held a call ctx)] else []
      | .held a call ctx =>
          if !a.untilCancelled || e.isCancelled ctx.token then
            [e.control r run (.ending a call)]
          else []
      | .ending a call => [e.endCall r run a call]
      | .pausing f => e.pauseMoves r run f
      | .leaving o =>
          match run.stack with
          | f :: frames => [e.leaveFrame r run f frames o]
          | [] => [e.finishRun r run (.returned o)]
      | .unwinding p =>
          match run.stack with
          | f :: frames => [e.unwindFrame r run f frames p]
          | [] => [e.finishRun r run (.unwound p)]
      | .returned _ => []
      | .unwound _ => []
      | .dropped => []

/-- Give up what all frames of a run hold, from the innermost outwards. -/
def releaseAll (e : Executor) (run : Run) : List Frame → Executor
  | [] => e
  | f :: frames => (e.release run frames.length f).releaseAll run frames

/-- Take a queued run out of the queue of the lock it waits for. -/
def leaveQueue (e : Executor) (r : RunId) (run : Run) : Executor :=
  match run.control, e.layer? run.job run.stack.length with
  | .queued _, some (.delay lock) =>
      e.modifyJob run.job (·.setLayer run.stack.length (.delay (lock.leave r)))
  | _, _ => e

/-- Drop a run that is not over: it gives up what it holds and never moves again. -/
def dropRun (e : Executor) (r : RunId) : Executor :=
  match e.runs[r]? with
  | none => e
  | some run =>
      if run.isOver then e
      else
        let e := (e.leaveQueue r run).releaseAll run run.stack
        let e := match run.counted with
          | some t => e.leave t
          | none => e
        e.setRun r { run with stack := [], control := .dropped }

/-- Drop every run that is not over. -/
def dropRuns (e : Executor) : Executor :=
  (List.range e.runs.length).foldl dropRun e

end Executor
end Timetable
