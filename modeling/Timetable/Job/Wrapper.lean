import Timetable.Crash
import Timetable.Job.Trace
import Timetable.Job.Token
import Timetable.Job.Tracker

/-!
# Wrappers and chains

A wrapper adds a behaviour to a job.  A chain is a list of wrappers, the first of
which becomes the outermost.  Applying a chain makes a layer of each wrapper,
with a state of its own, so that two jobs decorated by one chain share nothing
but the trackers and signals that the wrappers name.
-/

namespace Timetable

/-- A shutdown signal is known by its place in the table. -/
abbrev SignalId := Nat

/-- A behaviour that is added to a job. -/
inductive Wrapper where
  /-- Turn unwinding into a failure. -/
  | recover
  /-- Count runs on a tracker. -/
  | track (tracker : TrackerId)
  /-- Repeat a failed run, following a shutdown signal; a negative limit is none. -/
  | retry (signal : SignalId) (limit : Int) (interval : Span)
  /-- Drop a run while another is in progress. -/
  | skip
  /-- Hold a run back while another is in progress. -/
  | delay
  /-- Open a span around a run. -/
  | trace (tracer : Tracer)
  /-- Write the beginning and the end of a run into a list. -/
  | tag (name : String)
  deriving DecidableEq, Repr

/-- The shortest interval between repetitions. -/
def shortestRetry : Span :=
  ⟨100 * nanosPerMilli, by decide⟩

/-- A wrapper that repeats failed runs; its interval has a lower limit. -/
def Wrapper.retry? (signal : SignalId) (limit : Int) (interval : Span) :
    Except Crash Wrapper :=
  if shortestRetry ≤ interval then .ok (.retry signal limit interval)
  else .error (.shortRetry interval)

/-- A list of wrappers, the outermost first. -/
abbrev Chain := List Wrapper

/-- The size of a chain, as it is printed. -/
def Chain.display (c : Chain) : String :=
  "JobChain \x7b wrappers: " ++ Text.numeral c.length ++ " \x7d"

/-- A run is known by its place in the table. -/
abbrev RunId := Nat

/-- A lock: the run that holds it, and those that wait for it in order. -/
structure Lock where
  holder : Option RunId := none
  queue : List RunId := []
  deriving DecidableEq, Repr

namespace Lock

/-- The lock goes to the first in the queue, if there is one. -/
def release (l : Lock) : Lock :=
  match l.queue with
  | [] => ⟨none, []⟩
  | r :: rs => ⟨some r, rs⟩

/-- The lock with one more run in its queue. -/
def join (l : Lock) (r : RunId) : Lock :=
  { l with queue := l.queue ++ [r] }

/-- The lock without a run, which may hold it or wait for it. -/
def leave (l : Lock) (r : RunId) : Lock :=
  if l.holder = some r then l.release else { l with queue := l.queue.erase r }

end Lock

/-- A wrapper in use, with the state it keeps for one job. -/
inductive Layer where
  | recover (last : Option Outcome)
  | track (tracker : TrackerId)
  | retry (signal : SignalId) (limit : Int) (interval : Span) (last : Option Outcome)
  | skip (running : Bool)
  | delay (lock : Lock)
  | trace (tracer : Tracer)
  | tag (name : String)
  deriving DecidableEq, Repr

/-- The layer of a wrapper, in its first state. -/
def Wrapper.layer : Wrapper → Layer
  | recover => .recover none
  | track t => .track t
  | retry signal limit interval => .retry signal limit interval none
  | skip => .skip false
  | delay => .delay {}
  | trace tracer => .trace tracer
  | tag name => .tag name

/-- The layers of a chain, the outermost first. -/
def Chain.layers (c : Chain) : List Layer :=
  c.map Wrapper.layer

@[simp] theorem Chain.length_layers (c : Chain) : c.layers.length = c.length := by
  simp [Chain.layers]

/-- The layer keeps outcomes of its own; any other layer shows those inside it. -/
def Layer.keepsOutcome : Layer → Bool
  | recover _ => true
  | retry _ _ _ _ => true
  | _ => false

/-- The last outcome that the layer keeps. -/
def Layer.last : Layer → Option Outcome
  | recover last => last
  | retry _ _ _ last => last
  | _ => none

/-- The layer with another last outcome, if it keeps outcomes. -/
def Layer.withLast (o : Outcome) : Layer → Layer
  | recover _ => .recover (some o)
  | retry signal limit interval _ => .retry signal limit interval (some o)
  | l => l

end Timetable
