/-!
# Signed numerals

A numeral is an optional sign and one or more ASCII digits.  It is read from
the left, and every value on the way has to fit into a signed word of 64 bits;
the first character that fails decides the fault.

Main result: a numeral that is accepted has a value in the range of the word.
-/

namespace Timetable
namespace Text

/-- Why a text is no numeral. -/
inductive NumeralFault where
  | empty
  | invalidDigit
  | tooLarge
  | tooSmall
  deriving DecidableEq, Repr

/-- The fault in words. -/
def NumeralFault.message : NumeralFault → String
  | .empty => "cannot parse integer from empty string"
  | .invalidDigit => "invalid digit found in string"
  | .tooLarge => "number too large to fit in target type"
  | .tooSmall => "number too small to fit in target type"

/-- The largest value of a signed word. -/
def wordMax : Int := 9223372036854775807

/-- The smallest value of a signed word. -/
def wordMin : Int := -9223372036854775808

/-- The value of an ASCII digit. -/
def digit? (c : Char) : Option Nat :=
  if c.isDigit then some (c.toNat - '0'.toNat) else none

/-- Read digits after a number already read, upwards. -/
def readUp (n : Int) : List Char → Except NumeralFault Int
  | [] => .ok n
  | c :: cs =>
      match digit? c with
      | none => .error .invalidDigit
      | some d =>
          if 10 * n + d ≤ wordMax then readUp (10 * n + d) cs else .error .tooLarge

/-- Read digits after a number already read, downwards. -/
def readDown (n : Int) : List Char → Except NumeralFault Int
  | [] => .ok n
  | c :: cs =>
      match digit? c with
      | none => .error .invalidDigit
      | some d =>
          if wordMin ≤ 10 * n - d then readDown (10 * n - d) cs else .error .tooSmall

/-- Read a signed numeral. -/
def readNumeral : List Char → Except NumeralFault Int
  | [] => .error .empty
  | ['+'] => .error .invalidDigit
  | ['-'] => .error .invalidDigit
  | '+' :: cs => readUp 0 cs
  | '-' :: cs => readDown 0 cs
  | cs => readUp 0 cs

/-- The decimal digits of a number. -/
def digits (n : Nat) : List Char :=
  Nat.toDigits 10 n

/-- The numeral of a number. -/
def numeral (n : Int) : String :=
  match n with
  | .ofNat n => String.ofList (digits n)
  | .negSucc n => String.ofList ('-' :: digits (n + 1))

/-- Reading upwards stays at or above a non-negative start and within the word. -/
theorem readUp_bounds {n m : Int} {cs : List Char}
    (hn : 0 ≤ n) (hm : n ≤ wordMax) (h : readUp n cs = .ok m) :
    0 ≤ m ∧ m ≤ wordMax := by
  induction cs generalizing n with
  | nil =>
      simp [readUp] at h
      omega
  | cons c cs ih =>
      simp only [readUp] at h
      split at h
      · simp at h
      · split at h
        · exact ih (by omega) (by omega) h
        · simp at h

/-- Reading downwards stays at or below a start that is not positive and within the word. -/
theorem readDown_bounds {n m : Int} {cs : List Char}
    (hn : n ≤ 0) (hm : wordMin ≤ n) (h : readDown n cs = .ok m) :
    wordMin ≤ m ∧ m ≤ 0 := by
  induction cs generalizing n with
  | nil =>
      simp [readDown] at h
      omega
  | cons c cs ih =>
      simp only [readDown] at h
      split at h
      · simp at h
      · split at h
        · exact ih (by omega) (by omega) h
        · simp at h

/-- An accepted numeral fits into the word. -/
theorem readNumeral_bounds {cs : List Char} {n : Int} (h : readNumeral cs = .ok n) :
    wordMin ≤ n ∧ n ≤ wordMax := by
  have hmax : (0 : Int) ≤ wordMax := by decide
  have hmin : wordMin ≤ (0 : Int) := by decide
  unfold readNumeral at h
  split at h
  · simp at h
  · simp at h
  · simp at h
  · have := readUp_bounds (Int.le_refl 0) hmax h
    omega
  · have := readDown_bounds (Int.le_refl 0) hmin h
    omega
  · have := readUp_bounds (Int.le_refl 0) hmax h
    omega

end Text
end Timetable
