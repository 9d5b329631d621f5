import Timetable.Executor.Engine
import Timetable.Executor.Run

/-!
# Turns

What can move takes turns.  A task in its turn moves as long as it can and then
comes to rest; what its moves make possible for others is put at the end of the
line, in the order in which those came to rest.  When nothing can move the clock
goes on to the next moment at which something can.

A timer that finds one activation after the other due runs out of breath and goes
to the end of the line.  Whoever waits for trackers looks at them before anybody
else moves, and gives up before anybody else hears that it is time.

Turns are one way among all to order the moves of the tasks: the executor may
move by any move of any task (Executor.Step), and turns move by some of them.
-/

namespace Timetable
namespace Executor

/-- The moves of somebody who waits for trackers. -/
def waiterMoves (e : Executor) (n : Nat) : List Executor :=
  match e.waiters[n]? with
  | none => []
  | some w =>
      match w.finished, w.trackers with
      | some _, _ => []
      | none, t :: ts =>
          if e.inFlight t = 0 then
            [{ e with waiters := e.waiters.set n { w with trackers := ts } }]
          else []
      | none, [] =>
          let e := { e with waiters := e.waiters.set n { w with finished := some e.now } }
          [e.noteAll (w.farewell.map Event.logged).toList]

/-- The moves of a mover. -/
def moves (e : Executor) : Mover → List Executor
  | .run r => e.runMoves r
  | .timer n => e.timerMoves n
  | .waiter n => e.waiterMoves n

/-- The executor moves by one move of some task. -/
inductive Step (e : Executor) : Executor → Prop where
  | move (m : Mover) {e' : Executor} (h : e' ∈ e.moves m) : Step e e'

/-- A mover can move. -/
def canMove (e : Executor) (m : Mover) : Bool :=
  !(e.moves m).isEmpty

/-- A mover will never move again. -/
def isOver (e : Executor) : Mover → Bool
  | .run r => (e.runs[r]?).all Run.isOver
  | .timer n =>
      match (e.timers[n]?).map Timer.phase with
      | some .finished => true
      | some _ => false
      | none => true
  | .waiter n => (e.waiters[n]?).all fun w => w.finished.isSome

/-- Put what can move, among what came to rest, at the end of the line. -/
def rouse (e : Executor) : Executor :=
  let roused := e.waiting.filter e.canMove
  if roused.isEmpty then e
  else
    { e with
      ready := e.ready ++ roused
      waiting := e.waiting.filter fun m => !e.canMove m }

/-- A mover comes to rest, unless it is over. -/
def rest (e : Executor) (m : Mover) : Executor :=
  if e.isOver m then e else { e with waiting := e.waiting ++ [m] }

/-- The number of moves in one turn for which a timer has breath. -/
def breath : Nat := 128

/-- A timer needs breath to find that an activation is due, or that the engine runs again. -/
def takesBreath (e : Executor) : Mover → Bool
  | .timer n =>
      match (e.timers[n]?).map Timer.phase with
      | some (.armed _ _) => true
      | some (.waiting paused) => paused
      | _ => false
  | _ => false

/-- A mover with so much breath left moves as long as it can, so many times at most. -/
def turnWith (breath : Nat) : Nat → Executor → Mover → Executor
  | 0, e, m => e.rest m
  | n + 1, e, m =>
      match e.moves m, e.takesBreath m, breath with
      | [], _, _ => e.rest m
      | _ :: _, true, 0 => { e with ready := e.ready ++ [m] }
      | e' :: _, true, left + 1 => turnWith left n e'.rouse m
      | e' :: _, false, left => turnWith left n e'.rouse m

/-- Runs and timers go before those who wait for trackers. -/
def isWaiter : Mover → Bool
  | .waiter _ => true
  | _ => false

/-- The first in the line, and the line behind it. -/
def firstReady (e : Executor) : Option (Mover × Executor) :=
  match (e.ready.find? fun m => !isWaiter m).or e.ready.head? with
  | none => none
  | some m => some (m, { e with ready := e.ready.erase m })

/-- The number of turns, and of moves in a turn, after which settling gives up. -/
def patience : Nat := 1000000

/-- A mover moves as long as it can and has breath. -/
def turn (e : Executor) (m : Mover) : Executor :=
  turnWith breath patience e m

/-- Let movers take turns until none can move, so many times at most. -/
def settleFor : Nat → Executor → Executor
  | 0, e => e
  | n + 1, e =>
      match e.firstReady with
      | none => e
      | some (m, e) => settleFor n (e.turn m)

/-- Let movers take turns until none can move. -/
def settle (e : Executor) : Executor :=
  settleFor patience e.rouse

/-- Milliseconds that cover nanoseconds. -/
def ceilMillis (nanos : Nat) : Nat :=
  (nanos + (nanosPerMilli - 1)) / nanosPerMilli

/-- When the clock lets a mover move that has come to rest. -/
def alarm? (e : Executor) : Mover → Option Nat
  | .run r =>
      match e.runs[r]? with
      | some ⟨_, _, .asleep wake _ _ _, _, _, _⟩ => some wake
      | some ⟨_, .retry _ _ _ (some due) :: _, .pausing _, _, _, _⟩ => some (ceilMillis due)
      | _ => none
  | .timer n =>
      match (e.timers[n]?).map Timer.phase with
      | some (.armed _ due) => some (ceilMillis due)
      | _ => none
  | .waiter _ => none

/-- The next alarm after now. -/
def nextAlarm? (e : Executor) : Option Nat :=
  (e.waiting.filterMap e.alarm?).filter (e.now < ·) |>.min?

/-- The clock shows another time. -/
def setClock (e : Executor) (now : Nat) : Executor :=
  { e with now := now }

/-- Let time pass up to a moment, with everything that happens on the way, unless it is
ended before. -/
def passUntil (ended : Executor → Bool) (target : Nat) (e : Executor) : Executor :=
  if ended e then e
  else
    match e.nextAlarm? with
    | none => if e.now < target then (e.setClock target).settle else e
    | some alarm =>
        if alarm ≤ target ∧ e.now < alarm then
          let later := (e.setClock alarm).settle
          if e.now < later.now then passUntil ended target later else later
        else if e.now < target then (e.setClock target).settle
        else e
termination_by target - e.now
decreasing_by
  show target - later.now < target - e.now
  omega

/-- Let time pass up to a moment. -/
def passTo (e : Executor) (target : Nat) : Executor :=
  passUntil (fun _ => false) target e

/-- Somebody begins to wait for trackers, and looks at them at once. -/
def await (e : Executor) (trackers : List TrackerId) (farewell : Option LogLine) :
    Executor × Nat :=
  let w : Waiter := ⟨trackers, farewell, e.now, none⟩
  ({ e with waiters := e.waiters ++ [w] }.turn (.waiter e.waiters.length), e.waiters.length)

/-- The waiting is over. -/
def hasWaited (n : Nat) (e : Executor) : Bool :=
  (e.waiters[n]?).all fun w => w.finished.isSome

/-- Give up waiting. -/
def giveUp (e : Executor) (n : Nat) : Executor :=
  { e with
    waiters := e.waiters.modify n fun w => { w with finished := w.finished.or (some e.now) }
    ready := e.ready.erase (.waiter n)
    waiting := e.waiting.erase (.waiter n) }

/-- The patience of somebody who waits for trackers and says nothing of it, in milliseconds. -/
def longestWait : Nat := 60000

/-- Wait for trackers.  The wait itself has no limit; it is given up by whoever waits, after so
many milliseconds.  The answer tells whether it ended by itself and how long it took. -/
def waitFor (e : Executor) (trackers : List TrackerId) (farewell : Option LogLine)
    (limit : Nat := longestWait) : Executor × Bool × Nat :=
  let start := e.now
  let (e, n) := e.await trackers farewell
  if hasWaited n e then (e, true, 0)
  else
    let e := passUntil (hasWaited n) (start + limit - 1) e.settle
    if hasWaited n e then (e, true, e.now - start)
    else (((e.setClock (start + limit)).giveUp n).settle, false, limit)

end Executor
end Timetable
