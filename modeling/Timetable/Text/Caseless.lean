/-!
# Letters of either case

Names are compared without regard to the case of the ASCII letters; every
other character stands for itself alone.
-/

namespace Timetable
namespace Text

/-- The text with its ASCII capitals made small. -/
def small (cs : List Char) : List Char :=
  cs.map Char.toLower

/-- The two texts differ at most in the case of ASCII letters. -/
def sameLetters (a b : List Char) : Bool :=
  small a == small b

@[simp] theorem sameLetters_refl (a : List Char) :
    sameLetters a a = true := by
  simp [sameLetters]

theorem sameLetters_comm (a b : List Char) :
    sameLetters a b = sameLetters b a := by
  simp [sameLetters, Bool.beq_comm]

end Text
end Timetable
