import Timetable.Expression.Parser
import Timetable.Job.Wrapper

/-!
# Configurations

A configuration says how a registry reads expressions and which wrappers its jobs
have.  The wrappers have a fixed order: the fault barrier outermost, then
completion tracking, the trace, the policy for overlapping runs, and repetition.
A location that cannot be found and an interval of repetition that is too short
are faults of the configuration.
-/

namespace Timetable

/-- What happens to a run while another one of the same job is in progress. -/
inductive Overlap where
  | allow
  | skip
  | delay
  deriving DecidableEq, Repr

/-- The policy as a word. -/
def Overlap.word : Overlap → String
  | allow => "allow"
  | skip => "skip"
  | delay => "delay"

/-- Repetition of failed runs. -/
structure RetryConfig where
  limit : Int
  interval : Span
  deriving DecidableEq, Repr

/-- The fields of expressions. -/
structure ParserConfig where
  seconds : Bool := false
  descriptors : Bool := true
  deriving DecidableEq, Repr

/-- How lines of the log are written. -/
inductive LogFormat where
  | json
  | pretty
  | compact
  deriving DecidableEq, Repr

/-- The format as a word. -/
def LogFormat.word : LogFormat → String
  | json => "json"
  | pretty => "pretty"
  | compact => "compact"

/-- What is written into the log. -/
structure LoggingConfig where
  level : String
  format : LogFormat := .json
  moduleLevels : List (String × String) := []
  includeLocation : Bool := true
  includeThread : Bool := false
  includeTarget : Bool := true
  spanCloseEvents : Bool := false
  deriving DecidableEq, Repr

/-- A configuration of a registry. -/
structure Config where
  timezone : String := "Local"
  parser : ParserConfig := {}
  recover : Bool := true
  overlap : Overlap := .allow
  retry : Option RetryConfig := none
  trace : Bool := false
  logging : LoggingConfig
  deriving DecidableEq, Repr

namespace Config

/-- The level of the log that the environment asks for, or the usual one. -/
def defaultLevel (env : List (String × String)) : String :=
  ((env.find? fun v => v.1 == "RUST_LOG").map Prod.snd).getD "info"

/-- The configuration without any setting. -/
def standard (level : String) : Config :=
  { logging := { level := level } }

/-- The location of expressions. -/
def location (c : Config) : Except Fault Location :=
  Parser.readLocation c.timezone

/-- The interval of repetition is not too short. -/
def checkRetry (c : Config) : Except Fault Unit :=
  match c.retry with
  | none => .ok ()
  | some r => if shortestRetry ≤ r.interval then .ok () else .error (.retryTooShort r.interval)

/-- Look for faults. -/
def validate (c : Config) : Except Fault Unit := do
  let _ ← c.location
  c.checkRetry

/-- The fields of expressions. -/
def layout (c : Config) : Layout :=
  let base := if c.parser.seconds then Layout.withSeconds else Layout.standard
  if c.parser.descriptors then base else base.without .descriptor

/-- The parser for expressions. -/
def expressionParser (c : Config) : Except Fault Parser := do
  let l ← c.location
  .ok ((Parser.ofLayout c.layout).withLocation l)

/-- The wrappers for overlapping runs. -/
def overlapWrappers (c : Config) : Chain :=
  match c.overlap with
  | .allow => []
  | .skip => [.skip]
  | .delay => [.delay]

/-- The wrappers for repetition. -/
def retryWrappers (c : Config) (signal : SignalId) : Chain :=
  match c.retry with
  | none => []
  | some r => [.retry signal r.limit r.interval]

/-- The wrappers of a registry. -/
def wrappers (c : Config) (signal : SignalId) (tracker : TrackerId) : Chain :=
  (if c.recover then [.recover] else []) ++ [.track tracker] ++
    (if c.trace then [.trace .logging] else []) ++ c.overlapWrappers ++ c.retryWrappers signal

/-- The wrappers of a registry, if the configuration has no fault. -/
def chain (c : Config) (signal : SignalId) (tracker : TrackerId) : Except Fault Chain := do
  c.validate
  .ok (c.wrappers signal tracker)

end Config
end Timetable
