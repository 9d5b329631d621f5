import Timetable.Crash
import Timetable.Fault.Code
import Timetable.Field.Fault
import Timetable.Span.Words
import Timetable.Text.Quoted

/-!
# Faults

A fault says why something that a caller wrote is refused.  Its code and its
message are functions of the cause.  A refusal is a fault that the caller can
answer or a crash that ends the computation.
-/

namespace Timetable

/-- A code and a message, as a caller sees them. -/
structure Report where
  code : Code
  message : String
  deriving DecidableEq, Repr

/-- The report with its code in front. -/
def Report.display (r : Report) : String :=
  "[" ++ r.code.name ++ "] " ++ r.message

/-- Why something is refused. -/
inductive Fault where
  | emptySpec
  | field (fault : FieldFault)
  | fieldCount (expected : Nat) (found : List String)
  | descriptorsDisabled (text : String)
  | unrecognizedDescriptor (text : String)
  | invalidDuration (descriptor : String) (why : Span.WordsFault)
  | intervalTooLong (interval : Span)
  | intervalTooShort (interval : Span)
  | unknownTimezone (name : String)
  | runtimeUnavailable
  | unreadableConfiguration
  | retryTooShort (interval : Span)
  deriving DecidableEq, Repr

namespace Fault

/-- The code of the fault. -/
def code : Fault → Code
  | emptySpec => .emptySpec
  | field _ => .invalidField
  | fieldCount _ _ => .fieldCount
  | descriptorsDisabled _ => .descriptorsDisabled
  | unrecognizedDescriptor _ => .unrecognizedDescriptor
  | invalidDuration _ _ => .invalidDuration
  | intervalTooLong _ => .invalidDuration
  | intervalTooShort _ => .intervalTooShort
  | unknownTimezone _ => .unknownTimezone
  | runtimeUnavailable => .runtimeUnavailable
  | unreadableConfiguration => .invalidConfiguration
  | retryTooShort _ => .invalidConfiguration

/-- The fault in words. -/
def message : Fault → String
  | emptySpec => "empty spec string"
  | field fault => fault.message
  | fieldCount expected found =>
      "expected exactly " ++ Text.numeral expected ++ " fields, found " ++
        Text.numeral found.length ++ ": " ++ Text.quoteList found
  | descriptorsDisabled text => "does not accept descriptors: " ++ text
  | unrecognizedDescriptor text => "unrecognized descriptor: " ++ text
  | invalidDuration descriptor why =>
      "failed to parse duration " ++ descriptor ++ ": " ++ why.message
  | intervalTooLong interval =>
      "interval " ++ interval.toDecimal ++
        " out of range: Source duration value is out of range for the target type"
  | intervalTooShort interval =>
      "interval " ++ interval.toWords ++ " is shorter than the minimum of 1s"
  | unknownTimezone name =>
      "provided bad location " ++ name ++ ": '" ++ name ++ "' is not a valid timezone"
  | runtimeUnavailable =>
      "no tokio runtime available: there is no reactor running, " ++
        "must be called from the context of a Tokio 1.x runtime"
  | unreadableConfiguration => "failed to load configuration"
  | retryTooShort interval =>
      "retry interval " ++ interval.toWords ++ " is shorter than the minimum of 100ms"

/-- The fault as a caller sees it. -/
def report (f : Fault) : Report :=
  ⟨f.code, f.message⟩

end Fault

/-- Why a computation has no result. -/
inductive Refusal where
  | fault (f : Fault)
  | crash (c : Crash)
  deriving DecidableEq, Repr

end Timetable
