import Timetable.Powers
import Timetable.Span
import Timetable.Text.Numeral

/-!
# Spans in one unit

A span is written in the largest of s, ms, µs and ns that gives it a whole part
of at least one.  The fraction follows a point and ends in no zero.
-/

namespace Timetable
namespace Span

/-- The text of a fraction with the given number of places, without zeros at its end. -/
def fractionText (value places : Nat) : List Char :=
  let ds := Text.digits value
  let padded := List.replicate (places - ds.length) '0' ++ ds
  match (padded.reverse.dropWhile (· == '0')).reverse with
  | [] => []
  | kept => '.' :: kept

/-- A number of nanoseconds in a unit of ten to the given power of them. -/
def inUnit (nanos places : Nat) (name : String) : String :=
  String.ofList (Text.digits (nanos / tenTo places)) ++
    String.ofList (if places = 0 then [] else fractionText (nanos % tenTo places) places) ++ name

/-- The span as a decimal number of one unit. -/
def toDecimal (s : Span) : String :=
  if tenTo 9 ≤ s.nanos then inUnit s.nanos 9 "s"
  else if tenTo 6 ≤ s.nanos then inUnit s.nanos 6 "ms"
  else if tenTo 3 ≤ s.nanos then inUnit s.nanos 3 "µs"
  else inUnit s.nanos 0 "ns"

end Span
end Timetable
