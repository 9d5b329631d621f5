import Timetable.Text.Numeral

/-!
# Faults of a field

Why a range expression is refused.  Every fault quotes the whole range in which
it was found.
-/

namespace Timetable

/-- What is wrong with a range expression. -/
inductive RangeFault where
  | tooManyHyphens
  | tooManySlashes
  | noNumeral (text : String) (why : Text.NumeralFault)
  | negative (n : Int)
  | tooLarge (n : Int)
  | belowMinimum (first low : Nat)
  | aboveMaximum (last high : Nat)
  | reversed (first last : Nat)
  | noStep
  deriving DecidableEq, Repr

/-- The fault in words. -/
def RangeFault.message : RangeFault → String
  | .tooManyHyphens => "too many hyphens"
  | .tooManySlashes => "too many slashes"
  | .noNumeral text why => "failed to parse int from " ++ text ++ " (" ++ why.message ++ ")"
  | .negative n => "negative number (" ++ Text.numeral n ++ ") not allowed"
  | .tooLarge n => "number (" ++ Text.numeral n ++ ") out of range"
  | .belowMinimum first low =>
      "beginning of range (" ++ Text.numeral first ++ ") below minimum (" ++
        Text.numeral low ++ ")"
  | .aboveMaximum last high =>
      "end of range (" ++ Text.numeral last ++ ") above maximum (" ++ Text.numeral high ++ ")"
  | .reversed first last =>
      "beginning of range (" ++ Text.numeral first ++ ") beyond end of range (" ++
        Text.numeral last ++ ")"
  | .noStep => "step of range should be a positive number"

/-- A fault together with the range expression it was found in. -/
structure FieldFault where
  cause : RangeFault
  range : String
  deriving DecidableEq, Repr

/-- The fault in words, with the range. -/
def FieldFault.message (f : FieldFault) : String :=
  f.cause.message ++ ": " ++ f.range

end Timetable
