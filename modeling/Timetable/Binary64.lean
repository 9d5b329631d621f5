import Timetable.Powers

/-!
# Binary floating point

A number in the binary format of 64 bits is a whole number of at most 53 bits
times a power of two, with a sign; or an infinity; or no number.  A decimal is
rounded to the nearest number of the format, a tie to the even one, in exact
arithmetic on whole numbers.

A whole number may also be scaled by a power of ten: both are numbers of the
format, and so is their product or quotient, which is rounded once more.  This is
not always the number nearest to the decimal.
-/

namespace Timetable

/-- A number in the binary format of 64 bits. -/
inductive Binary64 where
  | nan
  | infinite (negative : Bool)
  | finite (negative : Bool) (significand : Nat) (exponent : Int)
  deriving DecidableEq, Repr

namespace Binary64

/-- Zero. -/
def zero (negative : Bool) : Binary64 :=
  finite negative 0 0

/-- The number is neither zero nor equal to it; what is no number counts as well. -/
def isNonzero : Binary64 → Bool
  | finite _ m _ => m != 0
  | _ => true

/-- Divide and round to the nearest whole number, a tie to the even one. -/
def divideEven (n d : Nat) : Nat :=
  let q := n / d
  let twice := 2 * (n % d)
  if d < twice || (twice == d && q % 2 == 1) then q + 1 else q

/-- A fraction divided by a power of two, as numerator and denominator. -/
def scale (n d : Nat) (exponent : Int) : Nat × Nat :=
  if 0 ≤ exponent then (n, d * twoTo exponent.toNat) else (n * twoTo (-exponent).toNat, d)

/-- The smallest exponent of the format. -/
def leastExponent : Int := -1074

/-- The largest exponent of the format. -/
def greatestExponent : Int := 971

/-- The exponent with which a fraction has 53 bits, or the smallest one. -/
def exponentOf (n d : Nat) : Int :=
  let guess : Int := (Nat.log2 n : Int) - Nat.log2 d - 52
  let (a, b) := scale n d guess
  let exact := if a / b < twoTo 52 then guess - 1 else guess
  max exact leastExponent

/-- The number nearest to a fraction. -/
def ofFraction (negative : Bool) (n d : Nat) : Binary64 :=
  if n = 0 then zero negative
  else
    let e := exponentOf n d
    let (a, b) := scale n d e
    let m := divideEven a b
    let (m, e) := if m = twoTo 53 then (twoTo 52, e + 1) else (m, e)
    if greatestExponent < e then infinite negative
    else if m = 0 then zero negative
    else finite negative m e

/-- The number nearest to a decimal.  Far beyond the range of the format the digits do
not matter. -/
def ofDecimal (negative : Bool) (digits : Nat) (exponent : Int) : Binary64 :=
  let magnitude : Int := (Nat.toDigits 10 digits).length + exponent
  if digits = 0 then zero negative
  else if 310 < magnitude then infinite negative
  else if magnitude < -330 then zero negative
  else if 0 ≤ exponent then ofFraction negative (digits * tenTo exponent.toNat) 1
  else ofFraction negative digits (tenTo (-exponent).toNat)

/-- The number nearest to a whole number. -/
def ofInt (n : Int) : Binary64 :=
  ofDecimal (decide (n < 0)) n.natAbs 0

/-- Ten to a power as a number of the format: its significand and its exponent. -/
def tenPower (k : Nat) : Nat × Int :=
  match ofDecimal false 1 k with
  | finite _ m e => (m, e)
  | _ => (1, 0)

/-- The largest power of ten of the format. -/
def greatestTen : Nat := 308

/-- A number times ten to a power, rounded. -/
def timesTen (x : Binary64) (k : Nat) : Binary64 :=
  match x with
  | finite negative m e =>
      let (n, f) := tenPower k
      let (a, b) := scale (m * n) 1 (-(e + f))
      ofFraction negative a b
  | x => x

/-- A number divided by ten to a power, rounded. -/
def overTen (x : Binary64) (k : Nat) : Binary64 :=
  match x with
  | finite negative m e =>
      let (n, f) := tenPower k
      let (a, b) := scale m n (f - e)
      ofFraction negative a b
  | x => x

/-- A number divided by ten to a power that may be beyond the format, by the largest one as
often as needed. -/
def overTens (x : Binary64) (k : Nat) : Binary64 :=
  if k ≤ greatestTen then x.overTen k
  else if x.isNonzero then (x.overTen greatestTen).overTens (k - greatestTen)
  else x
termination_by k
decreasing_by
  simp only [greatestTen] at *
  omega

/-- A whole number scaled by a power of ten, unless it leaves the format. -/
def scaled? (negative : Bool) (n : Nat) (exponent : Int) : Option Binary64 :=
  let x := ofFraction negative n 1
  if exponent < 0 then some (x.overTens (-exponent).toNat)
  else if !x.isNonzero then some x
  else if greatestTen < exponent.toNat then none
  else
    match x.timesTen exponent.toNat with
    | infinite _ => none
    | y => some y

/-- The nearest whole number, a half away from zero, kept within a signed word. -/
def toWord (low high : Int) : Binary64 → Int
  | nan => 0
  | infinite negative => if negative then low else high
  | finite negative m e =>
      let size : Nat :=
        if 0 ≤ e then m * twoTo e.toNat
        else (m + twoTo ((-e).toNat - 1)) / twoTo (-e).toNat
      let n : Int := if negative then -(size : Int) else size
      max low (min high n)

end Binary64
end Timetable
