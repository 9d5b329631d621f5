import Timetable.Executor.Turn

/-!
# The registry

A registry maps keys to timers.  Registering a job under a key that is in use
closes the old timer before the new one is armed.  An entry whose timer has been
closed behind the registry's back counts for nothing; it is dropped when somebody
looks.

Starting lets the timers activate and gives the shutdown signal a fresh token if
the old one is cancelled.  Stopping cancels the token, and may wait until the
engine's activations and the tracked runs have ended.
-/

namespace Timetable

/-- A registry of scheduled jobs. -/
structure Registry where
  executor : Executor
  chain : Chain
  tracker : TrackerId
  signal : SignalId
  parser : Parser
  /-- The engine drives the timers that it arms. -/
  driven : Bool
  entries : List (String × Nat) := []
  running : Bool := false

namespace Registry

/-- The chain that a registry has unless it is given another one. -/
def standardChain (tracker : TrackerId) : Chain :=
  [.recover, .track tracker]

/-- Change the executor. -/
def onExecutor (g : Registry) (f : Executor → Executor) : Registry :=
  { g with executor := f g.executor }

/-- Write a line of the log. -/
def log (g : Registry) (level : Level) (message : String) (fields : List (String × String)) :
    Registry :=
  g.onExecutor (·.log level message fields none)

/-- The entries whose timers are open. -/
def liveEntries (g : Registry) : List (String × Nat) :=
  g.entries.filter fun entry => !g.executor.isClosed entry.2

/-- Drop the entries whose timers are closed. -/
def prune (g : Registry) : Registry :=
  { g with entries := g.liveEntries }

/-- The timer under a key. -/
def timer? (g : Registry) (key : String) : Option Nat :=
  (g.entries.find? fun entry => entry.1 == key).map Prod.snd

/-- The entries without those of a key. -/
def without (g : Registry) (key : String) : Registry :=
  { g with entries := g.entries.filter fun entry => entry.1 != key }

/-- Set the gauge of registered jobs. -/
def reportSize (g : Registry) : Registry :=
  g.onExecutor (·.note (.gauged .registeredJobs g.entries.length))

/-- Let timers activate, unless they do already. -/
def start (g : Registry) : Registry :=
  if g.running then g
  else
    let g := { g with running := true }
    let g := g.onExecutor fun e => (e.rearm g.signal).startEngine
    g.log .info "Crontab started" [("jobs", Text.numeral g.entries.length)]

/-- Let timers activate no longer, and cancel the shutdown token. -/
def halt (g : Registry) : Registry :=
  { g with running := false }.onExecutor fun e => e.stopEngine.trigger g.signal

/-- The number of tracked runs. -/
def inFlight (g : Registry) : Nat :=
  g.executor.inFlight g.tracker

/-- Stop without waiting. -/
def forceStop (g : Registry) : Registry :=
  if g.running then
    g.halt.log .info "Crontab force stopped" [("in_flight", Text.numeral g.inFlight)]
  else g

/-- The trackers that have to count no run before a stop is complete: all activations of
a driven engine, then the tracked runs. -/
def stopTrackers (g : Registry) : List TrackerId :=
  (if g.driven then [g.executor.dispatched] else []) ++ [g.tracker]

/-- The last word of a stop. -/
def stopFarewell : LogLine :=
  { level := .info, message := "Crontab stopped", fields := [] }

/-- Stop and wait for what is in progress, until that has ended or the caller gives up. -/
def stop (g : Registry) (limit : Nat := Executor.longestWait) : Registry × Bool × Nat :=
  if g.running then
    let n := g.inFlight
    let g := g.halt
    let g := if 0 < n then
        g.log .info "Waiting for running jobs" [("in_flight", Text.numeral n)] else g
    let (e, answer) := g.executor.waitFor g.stopTrackers (some stopFarewell) limit
    ({ g with executor := e }, answer)
  else (g, true, 0)

/-- Close the timer under a key and forget it, if there is one. -/
def replace (g : Registry) (key : String) : Registry :=
  match g.timer? key with
  | none => g
  | some n =>
      ((g.without key).onExecutor (·.close n)).log .debug "Replaced previous registration"
        [("key", key)]

/-- Arm a timer for a job under a key. -/
def register (g : Registry) (key : String) (value : Value) (script : Script)
    (schedule : Schedule) : Registry :=
  let g := g.replace key
  let (e, job) := g.executor.addJob g.chain key value script
  let (e, n) := e.arm schedule job g.driven
  let g := { g with executor := e, entries := g.entries ++ [(key, n)] }
  g.prune.reportSize.log .debug "Job registered" [("key", key)]

/-- Register a job under a key.  The key must not be empty, and a schedule with a fault
is refused before anything is changed. -/
def add (g : Registry) (key : String) (value : Value) (script : Script) (schedule : Schedule) :
    Except Refusal Unit × Registry :=
  if key = "" then (.error (.crash .emptyKey), g)
  else
    let asked := schedule.validate
    let noted := g.onExecutor (·.noteAll asked.events)
    match asked.answer with
    | .error c => (.error (.crash c), noted)
    | .ok (some f) => (.error (.fault f), noted.onExecutor (·.note f.report.logged))
    | .ok none => (.ok (), noted.register key value script asked.schedule)

/-- Register a job under a key for an expression in words. -/
def addText (g : Registry) (key : String) (value : Value) (script : Script) (text : String) :
    Except Refusal Unit × Registry :=
  match g.parser.parse text with
  | .error (.fault f) =>
      (.error (.fault f), g.onExecutor (·.noteAll [f.counted, f.report.logged]))
  | .error (.crash c) => (.error (.crash c), g)
  | .ok e => g.add key value script (.expression e)

/-- Close the timer under a key and forget it; the answer tells whether there was one. -/
def remove (g : Registry) (key : String) : Bool × Registry :=
  match g.timer? key with
  | none => (false, g)
  | some n =>
      (true, ((g.without key).onExecutor (·.close n)).reportSize.log .debug "Job removed"
        [("key", key)])

/-- There is an open timer under a key. -/
def contains (g : Registry) (key : String) : Bool × Registry :=
  match g.timer? key with
  | none => (false, g)
  | some n => if g.executor.isClosed n then (false, g.without key) else (true, g)

/-- The number of open timers. -/
def size (g : Registry) : Nat × Registry :=
  (g.prune.entries.length, g.prune)

/-- There is no open timer. -/
def isEmpty (g : Registry) : Bool × Registry :=
  (g.size.1 == 0, g.size.2)

/-- The keys of the open timers, sorted. -/
def keys (g : Registry) : List String × Registry :=
  ((g.prune.entries.map Prod.fst).mergeSort fun a b => decide (a ≤ b), g.prune)

/-- Close all timers. -/
def drop (g : Registry) : Registry :=
  { g.onExecutor fun e => g.entries.foldl (fun e entry => e.close entry.2) e with entries := [] }

/-- The registry in short. -/
def display (g : Registry) : String :=
  let location := match g.parser.location with
    | .here _ => "Local"
    | .zone z => "Zone(" ++ z.name ++ ")"
  "Crontab \x7b jobs: " ++ Text.numeral g.entries.length ++ ", running: " ++
    (if g.running then "true" else "false") ++ ", chain: " ++ Chain.display g.chain ++
    ", parser: Parser \x7b options: ParseOptions(" ++ Text.numeral g.parser.layout.number ++
    "), location: " ++ location ++ " \x7d, .. \x7d"

@[simp] theorem prune_prune (g : Registry) : g.prune.prune = g.prune := by
  simp [prune, liveEntries]

end Registry
end Timetable
