import Timetable.Binary64
import Timetable.Text.Caseless
import Timetable.Text.Numeral

/-!
# The text of binary floating point

A number is written with the fewest digits that read back as the same number;
of several such decimals it is the nearest, and the larger one of two that are
equally near.  The digits are written without an exponent.  A number is read from
digits with a point and an exponent, each of which may be missing, or from a word.
-/

namespace Timetable
namespace Binary64

/-- The decimals of a grid are whole multiples of a power of ten. -/
structure GridPoint where
  digits : Nat
  exponent : Int
  deriving DecidableEq, Repr

/-- A power of ten times a power of two, as numerator and denominator. -/
def weight (ten two : Int) : Nat × Nat :=
  (tenTo ten.toNat * twoTo two.toNat, tenTo (-ten).toNat * twoTo (-two).toNat)

/-- A decimal reads back as a number that is a significand with an exponent. -/
def readsBack (p : GridPoint) (m : Nat) (e : Int) : Bool :=
  ofDecimal false p.digits p.exponent == finite false m e

/-- How many digits a number has before the point; not positive for small numbers. -/
def wholeDigits (m : Nat) (e : Int) : Int :=
  let (n, d) := weight 0 e
  if d ≤ m * n then (Nat.toDigits 10 (m * n / d)).length
  else 1 - (Nat.toDigits 10 (d / (m * n))).length

/-- The neighbours of a number on the grid of a power of ten, the nearer one first; of two
that are equally near the larger one comes first. -/
def neighbours (m : Nat) (e ten : Int) : List GridPoint :=
  let (n, d) := weight (-ten) e
  let low := m * n / d
  if 2 * (m * n % d) < d then [⟨low, ten⟩, ⟨low + 1, ten⟩] else [⟨low + 1, ten⟩, ⟨low, ten⟩]

/-- The decimal with the fewest digits that reads back, trying so many digits and up. -/
def shortestFrom (m : Nat) (e : Int) : Nat → Nat → GridPoint
  | 0, _ => ⟨m, 0⟩
  | tries + 1, count =>
      match (neighbours m e (wholeDigits m e - count)).find? fun p => readsBack p m e with
      | some p => p
      | none => shortestFrom m e tries (count + 1)

/-- The decimal with the fewest digits that reads back. -/
def shortest (m : Nat) (e : Int) : GridPoint :=
  shortestFrom m e 18 1

/-- A decimal without an exponent. -/
def positional (p : GridPoint) : List Char :=
  let ds := Text.digits p.digits
  if 0 ≤ p.exponent then ds ++ List.replicate p.exponent.toNat '0'
  else
    let places := (-p.exponent).toNat
    let padded := List.replicate (places + 1 - ds.length) '0' ++ ds
    let whole := padded.take (padded.length - places)
    let part := ((padded.drop (padded.length - places)).reverse.dropWhile (· == '0')).reverse
    if part.isEmpty then whole else whole ++ '.' :: part

/-- The text of a number. -/
def toText : Binary64 → String
  | nan => "NaN"
  | infinite negative => if negative then "-inf" else "inf"
  | finite negative m e =>
      let digits := if m = 0 then ['0'] else positional (shortest m e)
      String.ofList (if negative then '-' :: digits else digits)

/-- Digits at the beginning of a text: their value, their number, and the rest. -/
def leadingDigits (cs : List Char) : Nat × Nat × List Char :=
  let ds := cs.takeWhile Char.isDigit
  (ds.foldl (fun n d => 10 * n + (d.toNat - '0'.toNat)) 0, ds.length, cs.dropWhile Char.isDigit)

/-- The exponent that a text consists of. -/
def exponentOfText? : List Char → Option Int
  | [] => some 0
  | c :: cs =>
      if c == 'e' || c == 'E' then
        let (negative, cs) := match cs with
          | '+' :: cs => (false, cs)
          | '-' :: cs => (true, cs)
          | cs => (false, cs)
        match leadingDigits cs with
        | (n, count, []) =>
            if count = 0 then none else some (if negative then -(n : Int) else n)
        | _ => none
      else none

/-- The number that digits with a point and an exponent stand for. -/
def ofDigits? (negative : Bool) (cs : List Char) : Option Binary64 :=
  let (whole, count, rest) := leadingDigits cs
  let (part, places, rest) := match rest with
    | '.' :: rest => leadingDigits rest
    | rest => (0, 0, rest)
  if count + places = 0 then none
  else
    (exponentOfText? rest).map fun e =>
      ofDecimal negative (whole * tenTo places + part) (e - places)

/-- The number that a text without its sign stands for. -/
def ofUnsigned? (negative : Bool) (cs : List Char) : Option Binary64 :=
  if Text.sameLetters cs "nan".toList then some nan
  else if Text.sameLetters cs "inf".toList || Text.sameLetters cs "infinity".toList then
    some (infinite negative)
  else ofDigits? negative cs

/-- The number that a text stands for. -/
def ofText? : List Char → Option Binary64
  | '-' :: cs => ofUnsigned? true cs
  | '+' :: cs => ofUnsigned? false cs
  | cs => ofUnsigned? false cs

end Binary64
end Timetable
