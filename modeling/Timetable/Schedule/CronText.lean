import Timetable.Expression.Parser
import Timetable.Journal
import Timetable.Window

/-!
# Expressions as text

A schedule may be given as the text of an expression.  The text is compiled when
it is first needed and the result, good or bad, is kept; setting another parser
forgets it.
-/

namespace Timetable

/-- The text of an expression with a window, and what became of compiling it. -/
structure CronText where
  text : String
  window : Window
  parser : Parser
  compiled : Option (Except Fault Expression)

namespace CronText

/-- A text that has not been compiled, for the standard layout. -/
def ofText (text : String) (zones : Zones := .listed) : CronText :=
  ⟨text, Window.unbounded, Parser.knowing zones Layout.standard, none⟩

/-- The text for another parser. -/
def withParser (c : CronText) (p : Parser) : CronText :=
  { c with parser := p, compiled := none }

/-- The text in another window. -/
def withWindow (c : CronText) (w : Window) : CronText :=
  { c with window := w }

/-- The text in a window with another begin. -/
def withBegin (c : CronText) (i : Instant) : CronText :=
  { c with window := { c.window with opens := some i } }

/-- The text in a window with another end. -/
def withEnd (c : CronText) (i : Instant) : CronText :=
  { c with window := { c.window with closes := some i } }

/-- The expression of the text, the text with the result kept, and the counts that
compiling caused. -/
def expression (c : CronText) : Except Crash (Except Fault Expression × CronText × List Event) :=
  match c.compiled with
  | some result => .ok (result, c, [])
  | none =>
      match c.parser.parse c.text with
      | .ok e => .ok (.ok e, { c with compiled := some (.ok e) }, [])
      | .error (.fault f) => .ok (.error f, { c with compiled := some (.error f) }, [f.counted])
      | .error (.crash x) => .error x

/-- A text that is compiled at once, for the standard layout. -/
def compiledText (text : String) (zones : Zones := .listed) : Except Refusal CronText :=
  match (ofText text zones).expression with
  | .ok (.ok _, c, _) => .ok c
  | .ok (.error f, _, _) => .error (.fault f)
  | .error x => .error (.crash x)

/-- The warning that the text does not compile. -/
def complaint (c : CronText) (f : Fault) : Event :=
  .logged
    { level := .warn
      message := "Cron expression does not compile"
      fields := [("expression", c.text), ("error", f.report.display)] }

end CronText
end Timetable
