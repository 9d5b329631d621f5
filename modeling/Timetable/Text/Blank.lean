import Timetable.Text.Pieces

/-!
# Blanks

The characters that separate words are the Unicode characters with the
property White_Space.  A text is trimmed by dropping the blanks at both ends,
and its words are the non-empty pieces between blanks.
-/

namespace Timetable
namespace Text

/-- Ranges of characters with the property White_Space. -/
def blankRanges : List (Nat × Nat) :=
  [(0x09, 0x0d), (0x20, 0x20), (0x85, 0x85), (0xa0, 0xa0), (0x1680, 0x1680),
   (0x2000, 0x200a), (0x2028, 0x2029), (0x202f, 0x202f), (0x205f, 0x205f),
   (0x3000, 0x3000)]

/-- A character that separates words. -/
def isBlank (c : Char) : Bool :=
  blankRanges.any fun r => r.1 ≤ c.toNat && c.toNat ≤ r.2

/-- The text without the blanks at its beginning. -/
def trimStart (cs : List Char) : List Char :=
  cs.dropWhile isBlank

/-- The text without the blanks at its end. -/
def trimEnd (cs : List Char) : List Char :=
  (cs.reverse.dropWhile isBlank).reverse

/-- The text without the blanks at either end. -/
def trim (cs : List Char) : List Char :=
  trimEnd (trimStart cs)

/-- The words of a text: its non-empty pieces between blanks. -/
def words (cs : List Char) : List (List Char) :=
  (pieces isBlank cs).filter fun w => !w.isEmpty

@[simp] theorem words_nil : words [] = [] := by
  rfl

/-- A leading blank separates nothing. -/
theorem words_cons_blank {c : Char} (cs : List Char) (h : isBlank c = true) :
    words (c :: cs) = words cs := by
  simp [words, pieces_cons_of_cut cs h]

/-- No word holds a blank. -/
theorem isBlank_of_mem_words {cs w : List Char} {c : Char}
    (hw : w ∈ words cs) (hc : c ∈ w) :
    isBlank c = false :=
  not_cut_of_mem_pieces (List.mem_filter.1 hw).1 hc

/-- No word is empty. -/
theorem ne_nil_of_mem_words {cs w : List Char} (hw : w ∈ words cs) :
    w ≠ [] := by
  have h := (List.mem_filter.1 hw).2
  intro hn
  simp [hn] at h

end Text
end Timetable
