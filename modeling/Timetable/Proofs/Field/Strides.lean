import Mathlib.Data.List.Forall2
import Timetable.Proofs.Field.Grammar

/-!
# The numbers of a stride and of a field

A stride holds the numbers that are reached from its first in steps, up to its
last.  Its mask is made in one of two ways: by two shifts of the full word if the
step is one, and number by number otherwise; both give the numbers that the stride
holds.  The star stands in a bit of its own, above all numbers of a field.

A field is compiled exactly if each of its ranges is read, and its mask is the
union of theirs.

Main results:

* both ways to make a mask agree (between_eq_ofList);
* the mask of a stride holds its numbers, and the star if it was written
  (has_mask, hasStar_mask);
* a field is compiled range by range (compileRanges_eq_ok_iff).
-/

namespace Timetable

namespace Mask

/-- Two masks that hold the same numbers are the same. -/
theorem ext_has
    {a b : Mask}
    (h : ∀ n, a.has n = b.has n) :
    a = b := by
  cases a
  cases b
  rw [mk.injEq]
  exact BitVec.eq_of_getLsbD_eq fun n _ => h n

/-- The numbers that are reached in steps. -/
theorem mem_stepped_iff
    {low high step n : Nat}
    (hstep : 0 < step) :
    n ∈ stepped low high step ↔ ∃ k, n = low + k * step ∧ n ≤ high := by
  unfold stepped strideCount
  rw [List.mem_range']
  split
  · rename_i hbelow
    constructor
    · rintro ⟨k, hk, -⟩
      omega
    · rintro ⟨k, rfl, hle⟩
      omega
  · have hcount : ∀ k, k < (high - low) / step + 1 ↔ low + k * step ≤ high := by
      intro k
      rw [Nat.lt_succ_iff, Nat.le_div_iff_mul_le hstep]
      omega
    constructor
    · rintro ⟨k, hk, rfl⟩
      rw [Nat.mul_comm]
      exact ⟨k, rfl, (hcount k).1 hk⟩
    · rintro ⟨k, rfl, hle⟩
      exact ⟨k, (hcount k).2 hle, by rw [Nat.mul_comm]⟩

/-- The two shifts of the full word give the numbers that are reached in steps of one. -/
theorem between_eq_ofList
    {low high : Nat}
    (h : high ≤ 63) :
    between low high = ofList (stepped low high 1) := by
  refine ext_has fun n => ?_
  rw [has_between n h, has_ofList, Bool.eq_iff_iff]
  simp only [Bool.and_eq_true, decide_eq_true_eq, mem_stepped_iff Nat.one_pos]
  constructor
  · rintro ⟨hlow, hhigh⟩
    exact ⟨by omega, n - low, by omega, hhigh⟩
  · rintro ⟨-, k, rfl, hle⟩
    exact ⟨by omega, hle⟩

/-- The mask of numbers a step apart is that of the list of them, however it is made. -/
theorem strided_eq_ofList
    {low high step : Nat}
    (h : high ≤ 63) :
    strided low high step = ofList (stepped low high step) := by
  unfold strided
  split
  · rename_i hone
    rw [hone, between_eq_ofList h]
  · rfl

end Mask

namespace Stride

variable {b : Bounds} {s : Stride}

/-- The numbers of a stride: those that are reached from its first in steps, up to its last. -/
def Holds
    (s : Stride)
    (n : Nat) :
    Prop :=
  ∃ k, n = s.first + k * s.step ∧ n ≤ s.last

theorem Within.holds_first (within : s.Within b) : s.Holds s.first :=
  ⟨0, by simp, within.inOrder⟩

theorem has_mask_iff
    (within : s.Within b)
    (small : b.high ≤ 62)
    (n : Nat) :
    s.mask.has n = true ↔ s.Holds n ∨ (n = 63 ∧ s.starred = true) := by
  have hlast : s.last ≤ 63 := by
    have := within.below
    omega
  have hstrided : (Mask.strided s.first s.last s.step).has n = true ↔ s.Holds n := by
    rw [Mask.strided_eq_ofList hlast, Mask.has_ofList, Bool.and_eq_true, decide_eq_true_eq,
      decide_eq_true_eq, Mask.mem_stepped_iff within.moves]
    constructor
    · exact fun h => h.2
    · rintro ⟨k, hk, hle⟩
      exact ⟨by omega, k, hk, hle⟩
  have hstar : (if s.starred then Mask.star else Mask.empty).has n = true ↔
      n = 63 ∧ s.starred = true := by
    cases s.starred with
    | false => simp
    | true =>
        simp only [if_true, Mask.star, Mask.starBit, Mask.has_single, Bool.and_eq_true,
          decide_eq_true_eq, and_true]
        omega
  rw [mask, Mask.has_union, Bool.or_eq_true, hstrided, hstar]

/-- The mask of a stride holds its numbers. -/
theorem has_mask
    (within : s.Within b)
    (small : b.high ≤ 62)
    {n : Nat}
    (hn : n ≤ 62) :
    s.mask.has n = true ↔ s.Holds n := by
  rw [has_mask_iff within small]
  constructor
  · rintro (h | ⟨rfl, -⟩)
    · exact h
    · omega
  · exact Or.inl

/-- The mask of a stride carries the star if it was written. -/
theorem hasStar_mask
    (within : s.Within b)
    (small : b.high ≤ 62) :
    s.mask.has 63 = true ↔ s.starred = true := by
  rw [has_mask_iff within small]
  constructor
  · rintro (⟨k, -, hle⟩ | ⟨-, hstar⟩)
    · have := within.below
      omega
    · exact hstar
  · exact fun hstar => Or.inr ⟨rfl, hstar⟩

/-- The union of a mask and the masks of strides. -/
def unionAll
    (m : Mask)
    (strides : List Stride) :
    Mask :=
  strides.foldl (fun m s => m.union s.mask) m

theorem has_unionAll
    (m : Mask)
    (strides : List Stride)
    (n : Nat) :
    (unionAll m strides).has n = true ↔
      m.has n = true ∨ ∃ s ∈ strides, s.mask.has n = true := by
  unfold unionAll
  induction strides generalizing m with
  | nil => simp
  | cons s strides ih =>
      simp only [List.foldl_cons, ih, Mask.has_union, Bool.or_eq_true, List.mem_cons,
        exists_eq_or_imp, or_assoc]

end Stride

namespace Field

variable {b : Bounds}

theorem compileRange_eq_ok_iff
    {range : List Char}
    {m : Mask} :
    compileRange b range = .ok m ↔ ∃ s, readRange b range = .ok s ∧ s.mask = m := by
  unfold compileRange
  cases readRange b range <;> simp

/-- **A field is compiled exactly if each of its ranges is read, to the union of their
masks.** -/
theorem compileRanges_eq_ok_iff
    {ranges : List (List Char)}
    {m m' : Mask} :
    compileRanges b m ranges = .ok m' ↔
      ∃ strides, List.Forall₂ (fun range s => readRange b range = .ok s) ranges strides ∧
        m' = Stride.unionAll m strides := by
  induction ranges generalizing m with
  | nil =>
      simp only [compileRanges, Except.ok.injEq, List.forall₂_nil_left_iff, exists_eq_left]
      exact eq_comm
  | cons range ranges ih =>
      constructor
      · intro h
        obtain ⟨more, hrange, h⟩ := ok_of_bind h
        obtain ⟨s, hread, rfl⟩ := compileRange_eq_ok_iff.1 hrange
        obtain ⟨strides, hall, rfl⟩ := ih.1 h
        exact ⟨s :: strides, .cons hread hall, rfl⟩
      · rintro ⟨strides, hall, rfl⟩
        cases hall with
        | @cons _ s _ strides hread hall =>
            have hrange := compileRange_eq_ok_iff.2 ⟨s, hread, rfl⟩
            simp only [compileRanges, hrange, Bind.bind, Except.bind]
            exact ih.2 ⟨strides, hall, rfl⟩

end Field
end Timetable
