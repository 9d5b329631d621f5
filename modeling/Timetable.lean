import Timetable.Config.Load
import Timetable.Filter
import Timetable.Json.Printer
import Timetable.Registry.Builder
import Timetable.Proofs.Executor.Delaying
import Timetable.Proofs.Executor.Enclosing
import Timetable.Proofs.Executor.Finishing
import Timetable.Proofs.Executor.Replay
import Timetable.Proofs.Executor.Ticking
import Timetable.Proofs.Executor.TurningAway
import Timetable.Proofs.Expression.DayRule
import Timetable.Proofs.Expression.Layouts
import Timetable.Proofs.Expression.Prefixes
import Timetable.Proofs.Field.Acceptance
import Timetable.Proofs.Pattern.Leaping
import Timetable.Proofs.Registry.Gauge
import Timetable.Proofs.Registry.Periods
import Timetable.Proofs.Schedule.Claiming
import Timetable.Proofs.Schedule.Compiling
import Timetable.Proofs.Schedule.Intervals
import Timetable.Proofs.Schedule.Nesting
import Timetable.Proofs.Schedule.Stranding
import Timetable.Proofs.Schedule.Ways
