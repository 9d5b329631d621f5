import Timetable.Crash

/-!
# Masks

A mask is a set of small numbers, kept as the bits of a word: bit i stands for
the number i.  The highest bit is the star, which records that a field was
written without restriction.
-/

namespace Timetable

/-- A set of numbers below 64. -/
structure Mask where
  bits : BitVec 64
  deriving DecidableEq, Repr

namespace Mask

/-- The mask without any number. -/
def empty : Mask :=
  ⟨0⟩

instance : Inhabited Mask :=
  ⟨empty⟩

/-- The mask holds a number. -/
def has (m : Mask) (n : Nat) : Bool :=
  m.bits.getLsbD n

/-- The mask of one number. -/
def single (n : Nat) : Mask :=
  ⟨1#64 <<< n⟩

/-- The numbers of either mask. -/
def union (a b : Mask) : Mask :=
  ⟨a.bits ||| b.bits⟩

/-- The bit of the star. -/
def starBit : Nat := 63

/-- The star alone. -/
def star : Mask :=
  single starBit

/-- The mask carries the star. -/
def hasStar (m : Mask) : Bool :=
  m.has starBit

/-- All numbers from a lowest to a highest, cut out of the full word by two shifts. -/
def between (low high : Nat) : Mask :=
  ⟨(BitVec.allOnes 64 >>> (63 - high)) &&& (BitVec.allOnes 64 <<< low)⟩

/-- How many numbers are reached from the lowest in steps, up to the highest. -/
def strideCount (low high step : Nat) : Nat :=
  if high < low then 0 else (high - low) / step + 1

/-- The numbers that are reached from the lowest in steps, up to the highest. -/
def stepped (low high step : Nat) : List Nat :=
  List.range' low (strideCount low high step) step

/-- The mask of a list of numbers. -/
def ofList (ns : List Nat) : Mask :=
  ns.foldl (fun m n => m.union (single n)) empty

/-- The numbers from a lowest to a highest that are a step apart. -/
def strided (low high step : Nat) : Mask :=
  if step = 1 then between low high else ofList (stepped low high step)

/-- The same for bounds and a step that nobody has checked. -/
def strided? (low high step : Nat) : Except Crash Mask :=
  if step = 0 then .error .arithmetic
  else if step = 1 then
    if low ≤ 63 ∧ high ≤ 63 then .ok (between low high) else .error .arithmetic
  else if low + (strideCount low high step - 1) * step ≤ 63 ∨ high < low then
    .ok (strided low high step)
  else .error .arithmetic

/-- The least number from a lowest to below a limit that the mask holds. -/
def leastFrom (m : Mask) (low limit : Nat) : Option Nat :=
  (List.range' low (limit - low)).find? m.has

@[simp] theorem has_empty (n : Nat) : empty.has n = false := by
  simp [has, empty]

@[simp] theorem has_union (a b : Mask) (n : Nat) :
    (a.union b).has n = (a.has n || b.has n) := by
  simp [has, union]

@[simp] theorem has_single (k n : Nat) :
    (single k).has n = (decide (n < 64) && decide (n = k)) := by
  simp only [has, single, BitVec.getLsbD_shiftLeft, BitVec.getLsbD_one]
  by_cases h : n < 64 <;> by_cases hk : n = k <;> grind

/-- The numbers between two bounds are in the mask, and no others. -/
theorem has_between {low high : Nat} (n : Nat) (h : high ≤ 63) :
    (between low high).has n = (decide (low ≤ n) && decide (n ≤ high)) := by
  simp only [has, between, BitVec.getLsbD_and, BitVec.getLsbD_ushiftRight,
    BitVec.getLsbD_shiftLeft, BitVec.getLsbD_allOnes]
  grind

/-- The mask of a list holds what is in the list and below 64. -/
theorem has_ofList (ns : List Nat) (n : Nat) :
    (ofList ns).has n = (decide (n < 64) && decide (n ∈ ns)) := by
  suffices h : ∀ m : Mask, (ns.foldl (fun m k => m.union (single k)) m).has n =
      (m.has n || (decide (n < 64) && decide (n ∈ ns))) by
    simpa [ofList] using h empty
  induction ns with
  | nil => simp
  | cons k ks ih =>
      intro m
      rw [List.foldl_cons, ih]
      simp only [has_union, has_single, List.mem_cons]
      grind

theorem leastFrom_bounds {m : Mask} {low limit n : Nat}
    (h : m.leastFrom low limit = some n) :
    low ≤ n ∧ n < limit ∧ m.has n = true := by
  have hmem := List.mem_of_find?_eq_some h
  have hhas := List.find?_some h
  rw [List.mem_range'_1] at hmem
  exact ⟨hmem.1, by omega, hhas⟩

/-- The mask as a number in base sixteen, with sixteen digits. -/
def toHex (m : Mask) : String :=
  let ds := Nat.toDigits 16 m.bits.toNat
  "0x" ++ String.ofList (List.replicate (16 - ds.length) '0' ++ ds)

end Mask
end Timetable
