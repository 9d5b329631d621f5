import Mathlib.Data.List.Pairwise
import Timetable.Field.Bounds

/-!
# Texts that differ in the case of letters

Making capitals small moves letters only.  So a character that is no letter
stands in one of two texts that differ in case only if it stands in the other.

The names of a field are told from values of any other kind by their letters, and
from each other by more than case; then a text in letters of any case is at most
one of the names, and has its number.

Main results:

* what is no letter is not moved (mem_of_sameLetters);
* a name in letters of any case is found (WellNamed.lookup_eq_some).
-/

namespace Timetable
namespace Text

/-- What holds of the first 128 characters holds of each of them. -/
theorem forall_ascii
    {P : Char → Prop}
    (h : ∀ n < 128, P (Char.ofNat n))
    {c : Char}
    (hc : c.toNat < 128) :
    P c := by
  have := h c.toNat hc
  rwa [Char.ofNat_toNat] at this

theorem isAlpha_iff_toNat {c : Char} :
    c.isAlpha = true ↔
      (65 ≤ c.toNat ∧ c.toNat ≤ 90) ∨ (97 ≤ c.toNat ∧ c.toNat ≤ 122) := by
  have hdef : c.isAlpha =
      (decide ('A'.val ≤ c.val ∧ c.val ≤ 'Z'.val) ||
        (decide ('a'.val ≤ c.val) && decide (c.val ≤ 'z'.val))) := rfl
  simp only [hdef, Bool.or_eq_true, Bool.and_eq_true, decide_eq_true_eq,
    UInt32.le_iff_toNat_le]
  rfl

theorem toNat_lt_of_isAlpha
    {c : Char}
    (h : c.isAlpha = true) :
    c.toNat < 128 := by
  have := isAlpha_iff_toNat.1 h
  omega

/-- What is no letter is not moved when capitals are made small. -/
theorem toLower_of_not_isAlpha
    {c : Char}
    (h : c.isAlpha = false) :
    c.toLower = c := by
  unfold Char.toLower
  refine dif_neg fun hupper => ?_
  have halpha : c.isAlpha = true := isAlpha_iff_toNat.2 (Or.inl hupper)
  simp [h] at halpha

/-- A letter stays a letter when capitals are made small. -/
theorem isAlpha_toLower
    {c : Char}
    (h : c.isAlpha = true) :
    c.toLower.isAlpha = true :=
  forall_ascii (P := fun c => c.isAlpha = true → c.toLower.isAlpha = true)
    (by decide) (toNat_lt_of_isAlpha h) h

/-- A character that is no letter stands in both of two texts that differ in case only. -/
theorem mem_of_sameLetters
    {a b : List Char}
    {c : Char}
    (h : sameLetters a b = true)
    (hc : c.isAlpha = false)
    (mem : c ∈ b) :
    c ∈ a := by
  have hsmall : small a = small b := by simpa [sameLetters] using h
  have hlower : c ∈ small a := by
    rw [hsmall, ← toLower_of_not_isAlpha hc]
    exact List.mem_map_of_mem mem
  obtain ⟨d, hd, heq⟩ := List.mem_map.1 hlower
  cases halpha : d.isAlpha with
  | true =>
      have := isAlpha_toLower halpha
      rw [heq, hc] at this
      cases this
  | false =>
      rw [toLower_of_not_isAlpha halpha] at heq
      exact heq ▸ hd

theorem sameLetters_of_both
    {a b c : List Char}
    (ha : sameLetters a c = true)
    (hb : sameLetters b c = true) :
    sameLetters a b = true := by
  simp only [sameLetters, beq_iff_eq] at *
  rw [ha, hb]

end Text

namespace Bounds

/-- A character of which names may be made: no digit, no sign, and nothing that has a meaning
of its own in a field. -/
def isNameLetter (c : Char) : Bool :=
  !c.isDigit && c ∉ ['+', '-', ',', '/', '*', '?']

theorem isNameLetter_of_isAlpha
    {c : Char}
    (h : c.isAlpha = true) :
    isNameLetter c = true :=
  Text.forall_ascii (P := fun c => c.isAlpha = true → isNameLetter c = true)
    (by decide) (Text.toNat_lt_of_isAlpha h) h

/-- The names of a field are made of letters, and differ in more than the case of letters. -/
structure WellNamed (b : Bounds) : Prop where
  letters : ∀ e ∈ b.names, e.1.toList ≠ [] ∧ ∀ c ∈ e.1.toList, isNameLetter c = true
  distinct : b.names.Pairwise fun d e => Text.sameLetters d.1.toList e.1.toList = false

variable {b : Bounds}

theorem wellNamed_months : months.WellNamed :=
  ⟨by simp [months, isNameLetter], by decide⟩

/-- A text that is a name in letters of any case has the number of that name. -/
theorem WellNamed.lookup_eq_some
    (named : b.WellNamed)
    {entry : String × Nat}
    {text : List Char}
    (mem : entry ∈ b.names)
    (same : Text.sameLetters entry.1.toList text = true) :
    b.lookup text = some entry.2 := by
  unfold lookup
  cases hfind : b.names.find? fun e => Text.sameLetters e.1.toList text with
  | none => exact absurd same (by simpa using List.find?_eq_none.1 hfind entry mem)
  | some found =>
      have hfound := List.find?_some hfind
      have hmem := List.mem_of_find?_eq_some hfind
      have : Std.Symm fun d e : String × Nat =>
          Text.sameLetters d.1.toList e.1.toList = false :=
        ⟨fun d e h => by rwa [Text.sameLetters_comm]⟩
      have hentry : found = entry := by
        by_contra hne
        have hdiffer := named.distinct.forall hmem mem hne
        rw [Text.sameLetters_of_both hfound same] at hdiffer
        cases hdiffer
      rw [hentry, Option.map_some]

/-- What is a name in letters of any case is not empty and holds letters only. -/
theorem WellNamed.isNameLetter_of_mem
    (named : b.WellNamed)
    {entry : String × Nat}
    {text : List Char}
    (mem : entry ∈ b.names)
    (same : Text.sameLetters entry.1.toList text = true) :
    text ≠ [] ∧ ∀ c ∈ text, isNameLetter c = true := by
  obtain ⟨hsome, hletters⟩ := named.letters entry mem
  refine ⟨?_, ?_⟩
  · rintro rfl
    simp [Text.sameLetters, Text.small] at same
    exact hsome (by simp [same])
  · intro c hc
    cases halpha : c.isAlpha with
    | true => exact isNameLetter_of_isAlpha halpha
    | false => exact hletters c (Text.mem_of_sameLetters same halpha hc)

end Bounds
end Timetable
