import Timetable.Config
import Timetable.Json
import Timetable.Setting.Dialect

/-!
# Loading configurations

A configuration is read from settings in a dialect; a setting that is missing has
its usual value, but a repetition has to say both its limit and its interval.  The
settings of a file and of the environment are laid one over the other and read in
the lenient dialect, and the result is checked for faults.  A single value is read
in the exact dialect and not checked.
-/

namespace Timetable
namespace Config

open Dialect

/-- Read a truth value. -/
def readTruth (d : Dialect) (s : Setting) : Except Misfit Bool :=
  suited (d.truth s)

/-- Read a text. -/
def readText (d : Dialect) (s : Setting) : Except Misfit String :=
  suited (d.text s)

/-- Read the fields of expressions. -/
def readParser (d : Dialect) (s : Setting) : Except Misfit ParserConfig := do
  let m ← d.members 2 s
  let usual : ParserConfig := {}
  let seconds ← member (m.get? 0 "seconds") usual.seconds (readTruth d)
  let descriptors ← member (m.get? 1 "descriptors") usual.descriptors (readTruth d)
  .ok ⟨seconds, descriptors⟩

/-- Read the policy for overlapping runs. -/
def readOverlap (d : Dialect) (s : Setting) : Except Misfit Overlap := do
  let word ← suited (d.choice ["allow", "skip", "delay"] s)
  .ok (if word = "skip" then .skip else if word = "delay" then .delay else .allow)

/-- Read an interval in words. -/
def readInterval (d : Dialect) (s : Setting) : Except Misfit Span := do
  let text ← readText d s
  match Span.ofWords text.toList with
  | .ok span => .ok span
  | .error .secondsExhausted => .error (.crash .arithmetic)
  | .error _ => .error .unsuitable

/-- Read the repetition of failed runs, which may be left out on purpose. -/
def readRetry (d : Dialect) (s : Setting) : Except Misfit (Option RetryConfig) :=
  match s with
  | .none => .ok none
  | s => do
      let m ← d.members 2 s
      let limit := required (m.get? 0 "limit") fun s => suited (d.whole s)
      let interval := required (m.get? 1 "interval") (readInterval d)
      if m.byName then
        let interval ← interval
        .ok (some ⟨← limit, interval⟩)
      else .ok (some ⟨← limit, ← interval⟩)

/-- Read the format of the log. -/
def readFormat (d : Dialect) (s : Setting) : Except Misfit LogFormat := do
  let word ← suited (d.choice ["json", "pretty", "compact"] s)
  .ok (if word = "pretty" then .pretty else if word = "compact" then .compact else .json)

/-- Read texts under names. -/
def readTexts (d : Dialect) : List (String × Setting) → Except Misfit (List (String × String))
  | [] => .ok []
  | (name, s) :: rest => do
      let text ← readText d s
      let more ← readTexts d rest
      .ok ((name, text) :: more)

/-- Read the levels of modules. -/
def readLevels (d : Dialect) : Setting → Except Misfit (List (String × String))
  | .table fs => readTexts d fs
  | _ => .error .unsuitable

/-- Read what is written into the log. -/
def readLogging (level : String) (d : Dialect) (s : Setting) : Except Misfit LoggingConfig := do
  let m ← d.members 7 s
  let usual : LoggingConfig := { level := level }
  let truth := readTruth d
  let level ← member (m.get? 0 "level") usual.level (readText d)
  let format ← member (m.get? 1 "format") usual.format (readFormat d)
  let moduleLevels ← member (m.get? 2 "module_levels") usual.moduleLevels (readLevels d)
  let includeLocation ← member (m.get? 3 "include_location") usual.includeLocation truth
  let includeThread ← member (m.get? 4 "include_thread") usual.includeThread truth
  let includeTarget ← member (m.get? 5 "include_target") usual.includeTarget truth
  let spanCloseEvents ← member (m.get? 6 "span_close_events") usual.spanCloseEvents truth
  .ok ⟨level, format, moduleLevels, includeLocation, includeThread, includeTarget,
    spanCloseEvents⟩

/-- Read a configuration; the level of the log is the one used when none is set.  Only
the repetition can end in a crash, and only if what is read before it suits. -/
def read (level : String) (d : Dialect) (s : Setting) : Except Misfit Config := do
  let m ← d.members 7 s
  let usual := standard level
  let timezone := member (m.get? 0 "timezone") usual.timezone (readText d)
  let logging := member (m.get? 6 "logging") usual.logging (readLogging level d)
  if m.byName then let _ ← logging else let _ ← timezone
  let parser ← member (m.get? 1 "parser") usual.parser (readParser d)
  let recover ← member (m.get? 2 "recover") usual.recover (readTruth d)
  let overlap ← member (m.get? 3 "overlap") usual.overlap (readOverlap d)
  let retry ← member (m.get? 4 "retry") usual.retry (readRetry d)
  let trace ← member (m.get? 5 "trace") usual.trace (readTruth d)
  .ok ⟨← timezone, parser, recover, overlap, retry, trace, ← logging⟩

/-- Read a single value, exactly. -/
def ofValue (level : String) (v : Value) : Except Misfit Config :=
  read level exact (.ofValue v)

/-- Read what is written into the log from a single value, exactly. -/
def loggingOfValue (level : String) (v : Value) : Except Misfit LoggingConfig :=
  readLogging level exact (.ofValue v)

/-- The fields of a value, which has to be a table. -/
def fieldsOf : Option Value → Except Refusal (List (String × Setting))
  | some (.table fields) => .ok (Setting.ofFields fields)
  | _ => .error (.fault .unreadableConfiguration)

/-- A misfit of loaded settings. -/
def refusalOf : Misfit → Refusal
  | .unsuitable => .fault .unreadableConfiguration
  | .crash c => .crash c

/-- Load a configuration from the environment over the fields of a file. -/
def ofSources (env : List (String × String)) (file : List (String × Setting)) :
    Except Refusal Config := do
  let settings := (Setting.table []).overlay file |>.overlay (Setting.ofEnvironment env)
  let c ← (read (defaultLevel env) lenient settings).mapError refusalOf
  c.validate.mapError .fault
  .ok c

/-- Load a configuration from the environment. -/
def ofEnvironment (env : List (String × String)) : Except Refusal Config :=
  ofSources env []

/-- Load a configuration from the value of a file and the environment.  There may be no
such value. -/
def ofFileValue (env : List (String × String)) (v : Option Value) :
    Except Refusal Config := do
  ofSources env (← fieldsOf v)

/-- Load a configuration from the text of a file and the environment. -/
def ofFileText (env : List (String × String)) (text : String) : Except Refusal Config :=
  ofFileValue env (Json.read text)

end Config
end Timetable
