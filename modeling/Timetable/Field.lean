import Timetable.Field.Bounds
import Timetable.Field.Fault
import Timetable.Mask
import Timetable.Text.Pieces

/-!
# Fields

A field is a list of range expressions with commas between them; empty members
of the list count for nothing.  A range expression is a value, two values with a
hyphen between them, or a star, and it may have a step behind a slash.  A value
with a step runs up to the highest number of the field.

A range expression is first read as a stride and then turned into a mask.  The
mask of a field is the union over its ranges.  A star keeps its mark unless its
step is above one.
-/

namespace Timetable

/-- Numbers a step apart, and whether they were written as a star. -/
structure Stride where
  first : Nat
  last : Nat
  step : Nat
  starred : Bool
  deriving DecidableEq, Repr

namespace Stride

/-- The numbers of the stride, with the star if it was written. -/
def mask (s : Stride) : Mask :=
  (Mask.strided s.first s.last s.step).union (if s.starred then Mask.star else Mask.empty)

end Stride

namespace Field

/-- The largest number that a range expression may name. -/
def countLimit : Int := 4294967295

/-- Read a number that is not negative and not too large. -/
def readCount (text : List Char) : Except RangeFault Nat :=
  match Text.readNumeral text with
  | .error why => .error (.noNumeral (String.ofList text) why)
  | .ok n =>
      if n < 0 then .error (.negative n)
      else if countLimit < n then .error (.tooLarge n)
      else .ok n.toNat

/-- Read a value: a name of the field, or a number. -/
def readValue (b : Bounds) (text : List Char) : Except RangeFault Nat :=
  match b.lookup text with
  | some n => .ok n
  | none => readCount text

/-- A star or a question mark. -/
def isStar (text : List Char) : Bool :=
  text == ['*'] || text == ['?']

/-- Read the part before the step, given as its pieces between hyphens. -/
def readEnds (b : Bounds) : List (List Char) → Except RangeFault Stride
  | [] => .error (.noNumeral "" .empty)
  | text :: others =>
      if isStar text then .ok ⟨b.low, b.high, 1, true⟩
      else do
        let first ← readValue b text
        match others with
        | [] => .ok ⟨first, first, 1, false⟩
        | [text] =>
            let last ← readValue b text
            .ok ⟨first, last, 1, false⟩
        | _ => .error .tooManyHyphens

/-- Read the step, given as the pieces behind slashes; it extends a single value
to the highest number of the field. -/
def readStep (b : Bounds) (single : Bool) (s : Stride) :
    List (List Char) → Except RangeFault Stride
  | [] => .ok s
  | [text] => do
      let step ← readCount text
      .ok ⟨s.first, if single then b.high else s.last, step, s.starred && step ≤ 1⟩
  | _ => .error .tooManySlashes

/-- Check that a stride keeps to the bounds, in order, and moves on. -/
def checkStride (b : Bounds) (s : Stride) : Except RangeFault Stride :=
  if s.first < b.low then .error (.belowMinimum s.first b.low)
  else if b.high < s.last then .error (.aboveMaximum s.last b.high)
  else if s.last < s.first then .error (.reversed s.first s.last)
  else if s.step = 0 then .error .noStep
  else .ok s

/-- Read a range expression. -/
def readRange (b : Bounds) (range : List Char) : Except RangeFault Stride :=
  match Text.pieces (· == '/') range with
  | [] => .error (.noNumeral "" .empty)
  | ends :: steps => do
      let values := Text.pieces (· == '-') ends
      let s ← readEnds b values
      let s ← readStep b (values.length == 1) s steps
      checkStride b s

/-- The mask of a range expression. -/
def compileRange (b : Bounds) (range : List Char) : Except FieldFault Mask :=
  match readRange b range with
  | .error cause => .error ⟨cause, String.ofList range⟩
  | .ok s => .ok s.mask

/-- The union of a mask and the masks of range expressions. -/
def compileRanges (b : Bounds) (m : Mask) : List (List Char) → Except FieldFault Mask
  | [] => .ok m
  | range :: ranges => do
      let more ← compileRange b range
      compileRanges b (m.union more) ranges

/-- The mask of a field. -/
def compile (b : Bounds) (text : List Char) : Except FieldFault Mask :=
  compileRanges b Mask.empty ((Text.pieces (· == ',') text).filter fun range => !range.isEmpty)

/-- The mask of a field without restriction. -/
def unrestricted (b : Bounds) : Mask :=
  (Mask.between b.low b.high).union Mask.star

/-- A stride that passes the check keeps to the bounds, in order, and moves on. -/
theorem checkStride_eq_ok {b : Bounds} {s t : Stride} :
    checkStride b s = .ok t ↔
      t = s ∧ b.low ≤ s.first ∧ s.last ≤ b.high ∧ s.first ≤ s.last ∧ 0 < s.step := by
  unfold checkStride
  constructor
  · intro h
    split at h
    · simp at h
    · split at h
      · simp at h
      · split at h
        · simp at h
        · split at h
          · simp at h
          · simp at h
            exact ⟨h.symm, by omega, by omega, by omega, by omega⟩
  · rintro ⟨rfl, h1, h2, h3, h4⟩
    rw [if_neg (by omega), if_neg (by omega), if_neg (by omega), if_neg (by omega)]

end Field
end Timetable
