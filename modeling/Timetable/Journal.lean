import Timetable.Fault

/-!
# The journal

Everything that a program tells the outside about itself is an event: a count, a
gauge, a line of the log, a span opened or finished, or a field recorded on a
span.  The journal is the history of events, and each figure is read off the history: a
counter is the number of its counts, a gauge its last value.
-/

namespace Timetable

/-- Figures that are kept about the jobs of a key or about the whole program. -/
inductive Metric where
  | faults (code : Code)
  | activations (key : String)
  | failures (key : String)
  | panics (key : String)
  | skips (key : String)
  | retries (key : String)
  | runDurations (key : String)
  | registeredJobs
  | inFlightRuns
  deriving DecidableEq, Repr

namespace Metric

/-- A name with the labels of a key. -/
def keyed (name key : String) : String :=
  name ++ "\x7bkey=" ++ key ++ "\x7d"

/-- The name of the figure, with its labels. -/
def display : Metric → String
  | faults code =>
      "cronwheel_errors_total\x7bcategory=" ++ code.category ++ ",code=" ++ code.name ++ "\x7d"
  | activations key => keyed "cronwheel_activations_total" key
  | failures key => keyed "cronwheel_failures_total" key
  | panics key => keyed "cronwheel_panics_total" key
  | skips key => keyed "cronwheel_skipped_total" key
  | retries key => keyed "cronwheel_retries_total" key
  | runDurations key => keyed "cronwheel_run_duration_seconds" key
  | registeredJobs => "cronwheel_registered_jobs"
  | inFlightRuns => "cronwheel_in_flight_runs"

end Metric

/-- How much a line of the log matters. -/
inductive Level where
  | debug
  | info
  | warn
  | error
  deriving DecidableEq, Repr

/-- The name of the level. -/
def Level.name : Level → String
  | debug => "DEBUG"
  | info => "INFO"
  | warn => "WARN"
  | error => "ERROR"

/-- A line of the log, inside the innermost open span of its run. -/
structure LogLine where
  level : Level
  message : String
  fields : List (String × String) := []
  inside : Option Nat := none
  deriving DecidableEq, Repr

/-- Something that happened. -/
inductive Event where
  | counted (m : Metric)
  | gauged (m : Metric) (value : Nat)
  | logged (line : LogLine)
  | spanOpened (parent : Option Nat) (operation : String) (tags : List (String × String))
  | spanRecorded (span : Nat) (field value : String)
  | spanFinished (span : Nat)
  deriving DecidableEq, Repr

namespace Event

/-- The figure that the event touches. -/
def metric? : Event → Option Metric
  | counted m => some m
  | gauged m _ => some m
  | _ => none

/-- The event opens a span. -/
def opensSpan : Event → Bool
  | spanOpened _ _ _ => true
  | _ => false

/-- What the event does to the value of a figure. -/
def apply (m : Metric) (value : Nat) : Event → Nat
  | counted m' => if m' = m then value + 1 else value
  | gauged m' n => if m' = m then n else value
  | _ => value

/-- An event leaves alone every figure that it does not touch. -/
theorem apply_of_untouched
    {m : Metric}
    {event : Event}
    (untouched : event.metric? ≠ some m)
    (value : Nat) :
    event.apply m value = value := by
  cases event with
  | counted m' => exact if_neg fun h => untouched (congrArg some h)
  | gauged m' n => exact if_neg fun h => untouched (congrArg some h)
  | logged | spanOpened | spanRecorded | spanFinished => rfl

end Event

/-- The history of events, the latest first. -/
structure Journal where
  latest : List Event := []
  deriving DecidableEq, Repr

namespace Journal

instance : Inhabited Journal :=
  ⟨{}⟩

/-- The journal with one more event. -/
def note (j : Journal) (e : Event) : Journal :=
  ⟨e :: j.latest⟩

/-- The journal with more events, in order. -/
def noteAll (j : Journal) (es : List Event) : Journal :=
  es.foldl note j

/-- The events, in order. -/
def events (j : Journal) : List Event :=
  j.latest.reverse

/-- The value of a figure. -/
def value (j : Journal) (m : Metric) : Nat :=
  j.events.foldl (Event.apply m) 0

/-- The figures that were touched, each once. -/
def touched (j : Journal) : List Metric :=
  (j.events.filterMap Event.metric?).eraseDups

/-- The number of spans opened. -/
def spanCount (j : Journal) : Nat :=
  j.latest.countP Event.opensSpan

@[simp] theorem events_note (j : Journal) (e : Event) :
    (j.note e).events = j.events ++ [e] := by
  simp [note, events]

@[simp] theorem events_noteAll (j : Journal) (es : List Event) :
    (j.noteAll es).events = j.events ++ es := by
  induction es generalizing j with
  | nil => simp [noteAll]
  | cons e es ih =>
      have := ih (j.note e)
      simp only [noteAll, List.foldl_cons] at this ⊢
      rw [this]
      simp

@[simp] theorem value_note (j : Journal) (e : Event) (m : Metric) :
    (j.note e).value m = e.apply m (j.value m) := by
  simp [value]

/-- Events leave alone every figure that none of them touches. -/
theorem value_noteAll_of_untouched
    {m : Metric}
    {events : List Event}
    (untouched : ∀ event ∈ events, event.metric? ≠ some m)
    (j : Journal) :
    (j.noteAll events).value m = j.value m := by
  induction events generalizing j with
  | nil => rfl
  | cons event events ih =>
      rw [List.forall_mem_cons] at untouched
      have htail := ih untouched.2 (j.note event)
      rw [value_note, Event.apply_of_untouched untouched.1] at htail
      exact htail

end Journal

/-- The count of a fault. -/
def Fault.counted (f : Fault) : Event :=
  .counted (.faults f.code)

/-- The line that reports a fault to the log: a warning where the caller is to blame. -/
def Report.logged (r : Report) : Event :=
  .logged
    { level := if r.code.isConfiguration then .warn else .error
      message := r.message
      fields := [("error_code", r.code.name), ("category", r.code.category)] }

/-- The counts that a refusal causes. -/
def Refusal.events : Refusal → List Event
  | .fault f => [f.counted]
  | .crash _ => []

/-- The counts that a result causes. -/
def refusalEvents {α : Type} : Except Refusal α → List Event
  | .error r => r.events
  | .ok _ => []

end Timetable
