import Timetable.Job.Wrapper

/-!
# Jobs

A task is the innermost part of a job: a key, a payload and a script that says
what each call of it does.  The script is infinite; a list of calls stands for
a script that repeats its last one, and which each task goes through by itself or
all tasks together.  A job is a task inside layers.
-/

namespace Timetable

/-- What a run carries while it unwinds. -/
inductive Payload where
  | text (s : String)
  | other
  deriving DecidableEq, Repr

/-- The text of a payload. -/
def Payload.text? : Payload → Option String
  | text s => some s
  | other => none

/-- The message of a payload. -/
def Payload.message (p : Payload) : String :=
  p.text?.getD "unknown panic payload"

/-- How a call ends. -/
inductive Ending where
  | succeed
  | fail (message : String)
  | panic (payload : Payload)
  deriving DecidableEq, Repr

/-- What a call does: sleep for some milliseconds, then wait for the cancellation of its
context, then end. -/
structure Attempt where
  sleep : Option Nat := none
  untilCancelled : Bool := false
  ending : Ending := .succeed
  deriving DecidableEq, Repr

/-- What each call of a task does, given the number of calls of the task before it and
that of the calls of all tasks before it. -/
abbrev Script := Nat → Nat → Attempt

/-- The call at a place of a list that repeats its last one; without calls all calls
succeed at once. -/
def Attempt.nth (calls : List Attempt) (n : Nat) : Attempt :=
  (calls[n]?).getD ((calls.getLast?).getD {})

/-- The script of a task that goes through a list by itself. -/
def Script.ofList (calls : List Attempt) : Script := fun own _ =>
  Attempt.nth calls own

/-- The script of a task that goes through a list together with all other tasks. -/
def Script.pooled (calls : List Attempt) : Script := fun _ all =>
  Attempt.nth calls all

/-- What a run is given: a token that cancels it, and the span around it. -/
structure Context where
  token : TokenId
  span : Option SpanRef := none
  deriving DecidableEq, Repr

/-- The innermost part of a job. -/
structure Task where
  key : String
  value : Value
  context : Context
  script : Script
  calls : Nat := 0
  last : Option Outcome := none

/-- A task inside layers, the outermost first. -/
structure Job where
  layers : List Layer
  task : Task

namespace Job

/-- A task inside the layers of a chain. -/
def ofTask (c : Chain) (t : Task) : Job :=
  ⟨c.layers, t⟩

/-- The last outcome that a job shows: that of the outermost layer that keeps outcomes,
or that of the task. -/
def lastOutcome (j : Job) : Option Outcome :=
  match j.layers.find? Layer.keepsOutcome with
  | some l => l.last
  | none => j.task.last

/-- The job with another layer at a place. -/
def setLayer (j : Job) (k : Nat) (l : Layer) : Job :=
  { j with layers := j.layers.set k l }

/-- The job whose layer at a place has another last outcome. -/
def setLast (j : Job) (k : Nat) (o : Outcome) : Job :=
  { j with layers := j.layers.modify k (Layer.withLast o) }

end Job
end Timetable
