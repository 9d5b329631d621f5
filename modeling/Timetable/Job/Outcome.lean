import Timetable.Value

/-!
# Outcomes

A run of a job ends well or with a failure.  A failure carries a message and
tells whether the job returned it or whether it was caught while the run was
unwinding.
-/

namespace Timetable

/-- How a run failed. -/
inductive FailureKind where
  | failed
  | panicked
  deriving DecidableEq, Repr

/-- The kind as a word. -/
def FailureKind.word : FailureKind → String
  | failed => "failed"
  | panicked => "panicked"

/-- The kind as a title. -/
def FailureKind.title : FailureKind → String
  | failed => "Failed"
  | panicked => "Panicked"

/-- The kind of a word. -/
def FailureKind.ofWord? (word : String) : Option FailureKind :=
  if word = "failed" then some failed else if word = "panicked" then some panicked else none

/-- The kind that a value names: a word, or a table with the word as its only name. -/
def FailureKind.ofValue? : Value → Option FailureKind
  | .text word => ofWord? word
  | .table [(word, .null)] => ofWord? word
  | _ => none

/-- A failure of a run. -/
structure JobFailure where
  message : String
  kind : FailureKind
  deriving DecidableEq, Repr

namespace JobFailure

/-- The failure that a job returned. -/
def failed (message : String) : JobFailure :=
  ⟨message, .failed⟩

/-- The failure of a run that was unwinding. -/
def panicked (message : String) : JobFailure :=
  ⟨message, .panicked⟩

/-- The failure in words. -/
def display (f : JobFailure) : String :=
  match f.kind with
  | .failed => f.message
  | .panicked => "panicked: " ++ f.message

/-- A failure with contexts that were added one after the other; the last one stands
first. -/
def inContexts (message : String) (contexts : List String) : JobFailure :=
  failed (contexts.foldl (fun text context => context ++ ": " ++ text) message)

/-- The failure that a value describes: a table with a message and a kind, or a list
of the two. -/
def ofValue? : Value → Option JobFailure
  | .table fields =>
      match Value.field? "message" fields, Value.field? "kind" fields with
      | some (.text message), some kind =>
          (FailureKind.ofValue? kind).map (JobFailure.mk message)
      | _, _ => none
  | .list [.text message, kind] => (FailureKind.ofValue? kind).map (JobFailure.mk message)
  | _ => none

end JobFailure

/-- How a run ended. -/
inductive Outcome where
  | ok
  | err (failure : JobFailure)
  deriving DecidableEq, Repr

end Timetable
