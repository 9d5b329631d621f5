import Timetable.Executor

/-!
# The engine and its timers

The engine lets timers activate while it runs.  A timer asks its schedule for the
next activation, sleeps until it is due, looks once more whether the engine runs,
and then counts and starts a run.  While the engine is stopped nothing is
activated; a timer that finds the engine stopped goes on from the instant at
which it runs again, so what was missed is not made up for.

Closing a timer cancels its token, on which it waits together with the clock and
the engine.  A timer is also closed when its schedule has no further activation.
-/

namespace Timetable
namespace Executor

/-- Let timers activate. -/
def startEngine (e : Executor) : Executor :=
  { e with running := true, engineCalls := e.engineCalls ++ [.start] }

/-- Let timers activate no longer. -/
def stopEngine (e : Executor) : Executor :=
  { e with running := false, engineCalls := e.engineCalls ++ [.stop] }

/-- Arm a timer for a schedule and a job.  A timer that is not driven keeps what it is
given and does nothing. -/
def arm (e : Executor) (s : Schedule) (j : JobId) (driven : Bool) : Executor × Nat :=
  let (e, token) := e.freshToken
  let n := e.timers.length
  let timer : Timer :=
    { job := j, schedule := s, token := token, previous := e.wallNow
      phase := if driven then .fresh else .idle }
  ({ e with
      timers := e.timers ++ [timer]
      ready := if driven then e.ready ++ [.timer n] else e.ready }, n)

/-- Close a timer. -/
def close (e : Executor) (n : Nat) : Executor :=
  match e.timers[n]? with
  | none => e
  | some t => (e.setTimer n { t with closed := true }).cancel t.token

/-- A timer counts as closed without anybody having closed it. -/
def exhaust (e : Executor) (n : Nat) : Executor :=
  { e with timers := e.timers.modify n fun t => { t with closed := true } }

/-- The timer is closed. -/
def isClosed (e : Executor) (n : Nat) : Bool :=
  (e.timers[n]?).all Timer.closed

/-- The timer is over, and closed. -/
def finishTimer (e : Executor) (n : Nat) (t : Timer) : Executor :=
  e.setTimer n { t with closed := true, phase := .finished }

/-- How long to sleep from one instant to another, in nanoseconds. -/
def delay (start target : Instant) : Nat :=
  (target.nanos - start.nanos).toNat

/-- Ask the schedule of a timer for its next activation.  A crash ends the timer without
closing it. -/
def askTimer (e : Executor) (n : Nat) (t : Timer) : Executor :=
  let asked := t.schedule.next t.previous
  let t := { t with schedule := asked.schedule }
  let e := e.noteAll asked.events
  match asked.answer with
  | .error _ => e.setTimer n { t with phase := .finished }
  | .ok none =>
      (e.log .debug "Schedule exhausted" [("key", e.jobKey t.job)] none).finishTimer n t
  | .ok (some i) => e.setTimer n { t with phase := .armed i (e.nanos + delay e.wallNow i) }

/-- An activation is due: count it if the engine runs, and drop it otherwise. -/
def checkTimer (e : Executor) (n : Nat) (t : Timer) (i : Instant) : Executor :=
  if e.running then
    (e.enter e.dispatched).setTimer n { t with previous := i, phase := .counted i }
  else e.setTimer n { t with previous := i.latest e.wallNow, phase := .resting }

/-- Start the run of an activation. -/
def activate (e : Executor) (n : Nat) (t : Timer) : Executor :=
  let e := e.count (.activations (e.jobKey t.job))
  (e.setTimer n { t with phase := .resting }).spawn t.job (e.jobContext t.job)
    (some e.dispatched)

/-- The moves of an armed timer: its token is cancelled, or its activation is due. -/
def armedMoves (e : Executor) (n : Nat) (t : Timer) (i : Instant) (due : Nat) :
    List Executor :=
  (if e.isCancelled t.token then [e.finishTimer n t] else []) ++
  (if due ≤ e.nanos then [e.setTimer n { t with phase := .woken i }] else [])

/-- The moves of a timer. -/
def timerMoves (e : Executor) (n : Nat) : List Executor :=
  match e.timers[n]? with
  | none => []
  | some t =>
      match t.phase with
      | .idle => []
      | .fresh => [e.setTimer n { t with previous := e.wallNow, phase := .resting }]
      | .resting => [e.setTimer n { t with phase := .waiting (!e.running) }]
      | .waiting paused =>
          if e.isCancelled t.token then [e.finishTimer n t]
          else if e.running then
            let previous := if paused then t.previous.latest e.wallNow else t.previous
            [e.setTimer n { t with previous := previous, phase := .asking }]
          else []
      | .asking => [e.askTimer n t]
      | .armed i due => e.armedMoves n t i due
      | .woken i => [e.checkTimer n t i]
      | .counted _ => [e.activate n t]
      | .finished => []

/-- A closed timer stays closed when it is closed again. -/
theorem isClosed_close (e : Executor) (n : Nat) : (e.close n).isClosed n = true := by
  unfold close
  split
  · rename_i h
    simp [isClosed, h]
  · rename_i t h
    have hn : n < e.timers.length := (List.getElem?_eq_some_iff.1 h).1
    simp [isClosed, setTimer, cancel, hn]

end Executor
end Timetable
