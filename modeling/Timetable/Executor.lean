import Timetable.Job
import Timetable.Schedule

/-!
# The executor

The executor runs jobs and timers on one clock.  Its state is plain data: the
clock, the tokens, signals, trackers and spans, the jobs with the state of their
layers, the runs and timers with the point at which each of them stands, and the
journal.  A run is a stack of frames, one for each layer it has entered, and a
control that says what it does next.  A timer has a phase in the same sense.

Nothing moves by itself: how a task moves on is defined in the modules on runs
and timers, and the order in which tasks move in the module on turns.
-/

namespace Timetable

/-- A layer that a run has entered. -/
inductive Frame where
  | recover
  | track (tracker : TrackerId)
  /-- The token followed by this run, the context of every attempt, the repetitions so
  far, and when the next one is due, in nanoseconds. -/
  | retry (shutdown : TokenId) (context : Context) (repeated : Nat) (due : Option Nat)
  | skip
  | delay
  | trace (span : SpanRef)
  | tag (name : String)
  deriving DecidableEq, Repr

/-- What a run does next. -/
inductive Control where
  /-- Enter the next layer, or the task. -/
  | entering (context : Context)
  /-- The next layer's lock has been found taken: go and join its queue. -/
  | joining (context : Context)
  /-- Wait in the queue of the next layer's lock. -/
  | queued (context : Context)
  /-- Sleep inside a call. -/
  | asleep (wake : Nat) (attempt : Attempt) (call : Nat) (context : Context)
  /-- Wait inside a call for the cancellation of its context. -/
  | held (attempt : Attempt) (call : Nat) (context : Context)
  /-- End a call. -/
  | ending (attempt : Attempt) (call : Nat)
  /-- Wait between two attempts, the last of which failed. -/
  | pausing (failure : JobFailure)
  /-- Hand an outcome to the innermost layer entered. -/
  | leaving (outcome : Outcome)
  /-- Unwind the innermost layer entered. -/
  | unwinding (payload : Payload)
  /-- The run is over. -/
  | returned (outcome : Outcome)
  /-- The run is over; it left the whole job by unwinding. -/
  | unwound (payload : Payload)
  /-- The run was dropped before it was over. -/
  | dropped
  deriving DecidableEq, Repr

/-- A job is known by its place in the table. -/
abbrev JobId := Nat

/-- A run of a job. -/
structure Run where
  job : JobId
  stack : List Frame := []
  control : Control
  /-- The tracker that counts the whole run. -/
  counted : Option TrackerId := none
  started : Nat
  finished : Option Nat := none
  deriving DecidableEq, Repr

/-- The run has come to its last control. -/
def Run.isOver (run : Run) : Bool :=
  match run.control with
  | .returned _ => true
  | .unwound _ => true
  | .dropped => true
  | _ => false

/-- A call of a task. -/
structure Call where
  job : JobId
  key : String
  value : Value
  started : Nat
  finished : Option Nat := none
  cancelled : Bool
  span : Option Nat

/-- Where a timer stands. -/
inductive Phase where
  /-- Nothing drives the timer. -/
  | idle
  /-- The timer has not moved yet. -/
  | fresh
  /-- Look whether the engine runs. -/
  | resting
  /-- Wait until the engine runs; it may have been found stopped. -/
  | waiting (paused : Bool)
  /-- Ask the schedule. -/
  | asking
  /-- Sleep until an activation is due, in nanoseconds. -/
  | armed (activation : Instant) (due : Nat)
  /-- Look again whether the engine runs, now that an activation is due. -/
  | woken (activation : Instant)
  /-- Start the run of an activation that has been counted. -/
  | counted (activation : Instant)
  /-- Nothing will be activated any more. -/
  | finished
  deriving DecidableEq, Repr

/-- A schedule and a job, with a handle that can be closed. -/
structure Timer where
  job : JobId
  schedule : Schedule
  token : TokenId
  closed : Bool := false
  previous : Instant
  phase : Phase

/-- Somebody who waits until trackers count no run, one after the other, and then has
a last word. -/
structure Waiter where
  trackers : List TrackerId
  farewell : Option LogLine := none
  started : Nat
  finished : Option Nat := none
  deriving DecidableEq, Repr

/-- What can move. -/
inductive Mover where
  | run (r : RunId)
  | timer (n : Nat)
  | waiter (n : Nat)
  deriving DecidableEq, Repr

/-- What the engine was told. -/
inductive EngineCall where
  | start
  | stop
  deriving DecidableEq, Repr

/-- The state of everything that runs. -/
structure Executor where
  /-- Milliseconds on the clock. -/
  now : Nat := 0
  /-- What the wall shows at each millisecond of the clock. -/
  wall : Nat → Instant
  tokens : Tokens := {}
  /-- The current token of each signal. -/
  signals : List TokenId := []
  trackers : List Tracker := []
  spans : List RecordedSpan := []
  jobs : List Job := []
  runs : List Run := []
  calls : List Call := []
  /-- What the tags wrote. -/
  order : List String := []
  timers : List Timer := []
  waiters : List Waiter := []
  /-- The engine lets timers activate. -/
  running : Bool := false
  /-- The tracker of all activations. -/
  dispatched : TrackerId := 0
  engineCalls : List EngineCall := []
  /-- What can move, in order. -/
  ready : List Mover := []
  /-- What cannot move, in the order in which it came to rest. -/
  waiting : List Mover := []
  journal : Journal := {}

namespace Executor

/-- Nanoseconds on the clock. -/
def nanos (e : Executor) : Nat :=
  e.now * nanosPerMilli

/-- What the wall shows now. -/
def wallNow (e : Executor) : Instant :=
  e.wall e.now

/-- Write an event into the journal. -/
def note (e : Executor) (event : Event) : Executor :=
  { e with journal := e.journal.note event }

/-- Write events into the journal. -/
def noteAll (e : Executor) (events : List Event) : Executor :=
  { e with journal := e.journal.noteAll events }

/-- Count something. -/
def count (e : Executor) (m : Metric) : Executor :=
  e.note (.counted m)

/-- Write a line of the log. -/
def log (e : Executor) (level : Level) (message : String) (fields : List (String × String))
    (inside : Option Nat) : Executor :=
  e.note (.logged ⟨level, message, fields, inside⟩)

/-- Make a token that has none above it. -/
def freshToken (e : Executor) : Executor × TokenId :=
  let (tokens, t) := e.tokens.fresh
  ({ e with tokens := tokens }, t)

/-- Make a token from another one. -/
def childToken (e : Executor) (t : TokenId) : Executor × TokenId :=
  let (tokens, u) := e.tokens.child t
  ({ e with tokens := tokens }, u)

/-- A mover waits for the cancellation of a token, perhaps among other things. -/
def waitsFor (e : Executor) (t : TokenId) : Mover → Bool
  | .run r =>
      match e.runs[r]? with
      | some ⟨_, _, .held _ _ ctx, _, _, _⟩ => ctx.token == t
      | some ⟨_, .retry shutdown ctx _ _ :: _, .pausing _, _, _, _⟩ =>
          ctx.token == t || shutdown == t
      | _ => false
  | .timer n =>
      match e.timers[n]? with
      | some timer => timer.token == t
      | none => false
  | .waiter _ => false

/-- Those who wait for a cancellation, in the order in which they hear of it. -/
def hearers (e : Executor) (t : TokenId) : List Mover :=
  ((e.tokens.hearing t).flatMap fun u => e.waiting.filter (e.waitsFor u)).eraseDups

/-- Cancel a token.  Those who wait for it are put at the end of the line. -/
def cancel (e : Executor) (t : TokenId) : Executor :=
  let heard := e.hearers t
  { e with
    tokens := e.tokens.cancel t
    ready := e.ready ++ heard
    waiting := e.waiting.filter fun m => !heard.contains m }

/-- The token is cancelled. -/
def isCancelled (e : Executor) (t : TokenId) : Bool :=
  e.tokens.isCancelled t

/-- Make a signal whose current token is given. -/
def addSignal (e : Executor) (t : TokenId) : Executor × SignalId :=
  ({ e with signals := e.signals ++ [t] }, e.signals.length)

/-- The current token of a signal. -/
def signalToken (e : Executor) (s : SignalId) : TokenId :=
  (e.signals[s]?).getD 0

/-- Cancel the current token of a signal. -/
def trigger (e : Executor) (s : SignalId) : Executor :=
  e.cancel (e.signalToken s)

/-- The current token of a signal is cancelled. -/
def isTriggered (e : Executor) (s : SignalId) : Bool :=
  e.isCancelled (e.signalToken s)

/-- Give a signal a new token, if its current one is cancelled. -/
def rearm (e : Executor) (s : SignalId) : Executor :=
  if e.isTriggered s then
    let (e, t) := e.freshToken
    { e with signals := e.signals.set s t }
  else e

/-- Make a tracker. -/
def addTracker (e : Executor) (reported : Bool) : Executor × TrackerId :=
  ({ e with trackers := e.trackers ++ [⟨0, reported⟩] }, e.trackers.length)

/-- The number of runs that a tracker counts. -/
def inFlight (e : Executor) (t : TrackerId) : Nat :=
  ((e.trackers[t]?).map Tracker.count).getD 0

/-- Set a tracker and its gauge. -/
def setTracker (e : Executor) (t : TrackerId) (tracker : Tracker) : Executor :=
  { e with trackers := e.trackers.set t tracker }.noteAll tracker.gauge

/-- Count a run on a tracker. -/
def enter (e : Executor) (t : TrackerId) : Executor :=
  match e.trackers[t]? with
  | some tracker => e.setTracker t tracker.enter
  | none => e

/-- Count a run on a tracker no longer. -/
def leave (e : Executor) (t : TrackerId) : Executor :=
  match e.trackers[t]? with
  | some tracker => e.setTracker t tracker.leave
  | none => e

/-- Open a span below another one. -/
def openSpan (e : Executor) (tracer : Tracer) (name : String) (parent : Option SpanRef)
    (tags : List (String × String)) : Executor × SpanRef :=
  match tracer with
  | .recording =>
      ({ e with spans := e.spans ++ [⟨name, parent.bind SpanRef.recorded?, tags, []⟩] },
        .recorded e.spans.length)
  | .logging =>
      (e.note (.spanOpened (parent.bind SpanRef.logged?) name tags),
        .logged (e.journal.spanCount + 1))
  | .silent => (e, .silent)

/-- Attach a failure to a span. -/
def attachFailure (e : Executor) (span : SpanRef) (f : JobFailure) : Executor :=
  match span with
  | .recorded n =>
      { e with spans := e.spans.modify n fun s =>
          (s.did (.tagged "error" "true")).did (.noted f.spanFields) }
  | .logged n =>
      (e.note (.spanRecorded n "error" "true")).log .info "span log"
        [("fields", Text.quotePairs f.spanFields)] (some n)
  | .silent => e

/-- Finish a span. -/
def finishSpan (e : Executor) (span : SpanRef) : Executor :=
  match span with
  | .recorded n => { e with spans := e.spans.modify n (·.did .finished) }
  | .logged n => e.note (.spanFinished n)
  | .silent => e

/-- Change a job. -/
def modifyJob (e : Executor) (j : JobId) (f : Job → Job) : Executor :=
  { e with jobs := e.jobs.modify j f }

/-- Change a run. -/
def setRun (e : Executor) (r : RunId) (run : Run) : Executor :=
  { e with runs := e.runs.set r run }

/-- Change a timer. -/
def setTimer (e : Executor) (n : Nat) (t : Timer) : Executor :=
  { e with timers := e.timers.set n t }

/-- Decorate a task with a chain, with a context of its own. -/
def addJob (e : Executor) (c : Chain) (key : String) (value : Value) (script : Script) :
    Executor × JobId :=
  let (e, token) := e.freshToken
  ({ e with jobs := e.jobs ++ [Job.ofTask c ⟨key, value, ⟨token, none⟩, script, 0, none⟩] },
    e.jobs.length)

/-- Start a run of a job. -/
def spawn (e : Executor) (j : JobId) (context : Context) (counted : Option TrackerId) :
    Executor :=
  { e with
    runs := e.runs ++ [⟨j, [], .entering context, counted, e.now, none⟩]
    ready := e.ready ++ [.run e.runs.length] }

/-- The context that a job has for itself. -/
def jobContext (e : Executor) (j : JobId) : Context :=
  ((e.jobs[j]?).map fun job => job.task.context).getD ⟨0, none⟩

/-- The key of a job. -/
def jobKey (e : Executor) (j : JobId) : String :=
  ((e.jobs[j]?).map fun job => job.task.key).getD ""

/-- The last outcome that a job shows. -/
def lastOutcome (e : Executor) (j : JobId) : Option Outcome :=
  (e.jobs[j]?).bind Job.lastOutcome

/-- An executor without jobs, whose wall shows one instant all the time. -/
def atRest (wall : Instant) : Executor :=
  (addTracker { wall := fun _ => wall } false).1

end Executor
end Timetable
