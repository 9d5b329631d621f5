import Timetable.Text.Numeral

/-!
# What numerals say

A numeral is one or more decimal digits, perhaps behind a plus sign; zeros at
its beginning count for nothing.  It is read digit by digit with a check of the
limit at each of them, and the numbers on the way only grow, so the check fails
exactly if the whole number is beyond the limit.  Behind a minus sign nothing
above zero can be read.

Main results:

* reading upwards accepts digits and gives the number that they write
  (readUp_eq_ok_iff);
* numerals are read (readNumeral_of_numeral), and whatever is read without a
  minus sign is a numeral (numeral_of_readNumeral).
-/

namespace Timetable
namespace Text

/-- Numerals and the numbers that they write. -/
inductive Numeral : List Char → Nat → Prop
  | digits
      {ds : List Char}
      (some : ds ≠ [])
      (all : ∀ c ∈ ds, c.isDigit = true) :
      Numeral ds (Nat.ofDigitChars 10 ds 0)
  | plus
      {ds : List Char}
      (some : ds ≠ [])
      (all : ∀ c ∈ ds, c.isDigit = true) :
      Numeral ('+' :: ds) (Nat.ofDigitChars 10 ds 0)

theorem le_ofDigitChars
    (n : Nat)
    (cs : List Char) :
    n ≤ Nat.ofDigitChars 10 cs n := by
  induction cs generalizing n with
  | nil => exact Nat.le_refl n
  | cons c cs ih =>
      rw [Nat.ofDigitChars_cons]
      have := ih (10 * n + (c.toNat - '0'.toNat))
      omega

/-- Reading upwards accepts digits, if the number that they write fits into the word. -/
theorem readUp_eq_ok_iff
    {n : Nat}
    {m : Int}
    {cs : List Char}
    (hn : (n : Int) ≤ wordMax) :
    readUp n cs = .ok m ↔
      (∀ c ∈ cs, c.isDigit = true) ∧ m = Nat.ofDigitChars 10 cs n ∧ m ≤ wordMax := by
  induction cs generalizing n with
  | nil =>
      simp only [readUp, Except.ok.injEq, List.not_mem_nil, Nat.ofDigitChars_nil]
      constructor
      · rintro rfl
        exact ⟨by simp, rfl, hn⟩
      · exact fun h => h.2.1.symm
  | cons c cs ih =>
      have hmono := le_ofDigitChars (10 * n + (c.toNat - '0'.toNat)) cs
      rw [Nat.ofDigitChars_cons, List.forall_mem_cons, readUp, digit?]
      cases hc : c.isDigit with
      | false => simp
      | true =>
          rw [if_pos rfl]
          dsimp only
          have hcast : 10 * (n : Int) + ((c.toNat - '0'.toNat : Nat) : Int) =
              ((10 * n + (c.toNat - '0'.toNat) : Nat) : Int) := by
            push_cast
            rfl
          rw [hcast]
          split
          · rename_i hfits
            rw [ih hfits]
            simp
          · rename_i hlarge
            simp only [reduceCtorEq, false_iff]
            rintro ⟨-, rfl, hm⟩
            omega

/-- A sign is no digit. -/
theorem ne_of_isDigit
    {c d : Char}
    (h : c.isDigit = true)
    (hd : d.isDigit = false) :
    c ≠ d := by
  rintro rfl
  simp [h] at hd

/-- Digits without a sign are read upwards. -/
theorem readNumeral_of_digits
    {ds : List Char}
    (some : ds ≠ [])
    (all : ∀ c ∈ ds, c.isDigit = true) :
    readNumeral ds = readUp 0 ds := by
  cases ds with
  | nil => exact absurd rfl some
  | cons c cs =>
      have hc := all c List.mem_cons_self
      have hplus := ne_of_isDigit hc (d := '+') (by decide)
      have hminus := ne_of_isDigit hc (d := '-') (by decide)
      unfold readNumeral
      split
      · contradiction
      · simp_all
      · simp_all
      · simp_all
      · simp_all
      · rfl

theorem readNumeral_plus
    {ds : List Char}
    (some : ds ≠ []) :
    readNumeral ('+' :: ds) = readUp 0 ds := by
  cases ds with
  | nil => exact absurd rfl some
  | cons c cs => rfl

/-- A numeral is read as the number that it writes, if that fits into the word. -/
theorem readNumeral_of_numeral
    {cs : List Char}
    {n : Nat}
    (h : Numeral cs n)
    (hn : (n : Int) ≤ wordMax) :
    readNumeral cs = .ok (n : Int) := by
  have hzero : ((0 : Nat) : Int) ≤ wordMax := by decide
  cases h with
  | digits some all =>
      rw [readNumeral_of_digits some all]
      exact (readUp_eq_ok_iff hzero).2 ⟨all, rfl, hn⟩
  | plus some all =>
      rw [readNumeral_plus some]
      exact (readUp_eq_ok_iff hzero).2 ⟨all, rfl, hn⟩

/-- What is read without a minus sign is a numeral. -/
theorem numeral_of_readNumeral
    {cs : List Char}
    {m : Int}
    (unsigned : cs.head? ≠ some '-')
    (h : readNumeral cs = .ok m) :
    ∃ n : Nat, m = n ∧ Numeral cs n := by
  have hzero : ((0 : Nat) : Int) ≤ wordMax := by decide
  unfold readNumeral at h
  split at h
  · simp at h
  · simp at h
  · simp at h
  · rename_i ds hlone
    obtain ⟨all, rfl, -⟩ := (readUp_eq_ok_iff hzero).1 h
    have some : ds ≠ [] := by
      rintro rfl
      exact hlone rfl
    exact ⟨_, rfl, .plus some all⟩
  · simp at unsigned
  · rename_i hempty _ _ _ _
    obtain ⟨all, rfl, -⟩ := (readUp_eq_ok_iff hzero).1 h
    exact ⟨_, rfl, .digits hempty all⟩

/-- Behind a minus sign nothing above zero is read. -/
theorem le_zero_of_readNumeral
    {cs : List Char}
    {m : Int}
    (h : readNumeral ('-' :: cs) = .ok m) :
    m ≤ 0 := by
  cases cs with
  | nil => simp [readNumeral] at h
  | cons c cs => exact (readDown_bounds (Int.le_refl 0) (by decide) h).2

end Text
end Timetable
