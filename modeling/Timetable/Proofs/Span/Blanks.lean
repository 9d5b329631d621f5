import Timetable.Crash
import Timetable.Span.Words

/-!
# Blanks around a span in words

The reader of a span knows the offset of each character, but only its faults
report it: what it reads does not depend on where the text begins.  It stays where
it is at the blanks before the first item, and a blank behind the last item changes
nothing but the mode in which it stops.  So a text that is read as a span is read
as the same span without the blanks at its ends.

Main results:

* offsets do not matter to what is read (scanWords_of_unplaced);
* a trimmed text is read as the same span (scanWords_trim).
-/

namespace Timetable
namespace Span

/-- The mode without the offsets that its faults report. -/
def WordsMode.unplaced : WordsMode → WordsMode
  | .gap started _ => .gap started 0
  | .whole n => .whole n
  | .point n f _ => .point n f 0
  | .name n f letters => .name n f letters

variable {m m' next : WordsMode} {total sum : Span} {offset : Nat} {c : Char} {cs : List Char}

/-- Modes that differ in offsets go on to modes that differ in offsets. -/
theorem wordsStep_of_unplaced
    (same : m.unplaced = m'.unplaced)
    (h : wordsStep m total offset c = .ok (next, sum))
    (offset' : Nat) :
    ∃ next', wordsStep m' total offset' c = .ok (next', sum) ∧ next.unplaced = next'.unplaced := by
  cases hdigit : Text.digit? c with
  | none =>
      cases m with
      | gap started start =>
          cases m' <;> cases same
          simp only [wordsStep, hdigit] at h ⊢
          grind [WordsMode.unplaced]
      | whole n =>
          cases m' <;> cases same
          simp only [wordsStep, hdigit] at h ⊢
          grind [WordsMode.unplaced]
      | point n f mark =>
          cases m' <;> cases same
          simp only [wordsStep, hdigit] at h ⊢
          grind [WordsMode.unplaced]
      | name n f letters =>
          cases m' <;> cases same
          simp only [wordsStep, hdigit] at h ⊢
          cases hc : Text.isBlank c with
          | true =>
              rw [hc, if_pos rfl] at h
              obtain ⟨total', hitem, h⟩ := ok_of_bind h
              cases h
              simp only [if_true, hitem, Bind.bind, Except.bind]
              exact ⟨_, rfl, rfl⟩
          | false =>
              rw [hc] at h
              grind
  | some d =>
      cases m with
      | gap started start =>
          cases m' <;> cases same
          simp only [wordsStep, hdigit] at h ⊢
          grind
      | whole n =>
          cases m' <;> cases same
          exact ⟨next, by simpa only [wordsStep, hdigit] using h, rfl⟩
      | point n f mark =>
          cases m' <;> cases same
          simp only [wordsStep, hdigit] at h ⊢
          obtain ⟨denominator, hdenominator, h⟩ := ok_of_bind h
          obtain ⟨numerator, hnumerator, h⟩ := ok_of_bind h
          cases h
          simp only [hdenominator, hnumerator, Bind.bind, Except.bind]
          exact ⟨_, rfl, rfl⟩
      | name n f letters =>
          cases m' <;> cases same
          exact ⟨next, by simpa only [wordsStep, hdigit] using h, rfl⟩

theorem wordsEnd_of_unplaced
    (same : m.unplaced = m'.unplaced)
    (h : wordsEnd m total = .ok sum) :
    wordsEnd m' total = .ok sum := by
  cases m with
  | gap started start =>
      cases m' <;> cases same
      cases started with
      | false => simp [wordsEnd] at h
      | true => exact h
  | whole n =>
      cases m' <;> cases same
      exact h
  | point n f mark =>
      cases m' <;> cases same
      simp only [wordsEnd] at h ⊢
      split at h
      · simp at h
      · rename_i hdigits
        rw [if_neg hdigits]
        exact h
  | name n f letters =>
      cases m' <;> cases same
      exact h

/-- What is read does not depend on offsets. -/
theorem scanWords_of_unplaced
    (same : m.unplaced = m'.unplaced)
    (h : scanWords m total offset cs = .ok sum)
    (offset' : Nat) :
    scanWords m' total offset' cs = .ok sum := by
  induction cs generalizing m m' total offset offset' with
  | nil => exact wordsEnd_of_unplaced same h
  | cons c cs ih =>
      simp only [scanWords] at h ⊢
      cases hstep : wordsStep m total offset c with
      | error f => simp [hstep] at h
      | ok stepped =>
          obtain ⟨next, total'⟩ := stepped
          obtain ⟨next', hstep', same'⟩ := wordsStep_of_unplaced same hstep offset'
          rw [hstep] at h
          rw [hstep']
          exact ih same' h _

/-- A blank is no digit. -/
theorem digit?_of_isBlank (h : Text.isBlank c = true) : Text.digit? c = none := by
  have hblank : ¬ c.isDigit = true := by
    intro hc
    rw [Char.isDigit_iff_toNat] at hc
    have hzero : '0'.toNat = 48 := rfl
    have hnine : '9'.toNat = 57 := rfl
    simp [Text.isBlank, Text.blankRanges] at h
    omega
  rw [Text.digit?, if_neg hblank]

/-- Before the first item a blank is passed over. -/
theorem scanWords_trimStart
    (h : scanWords (.gap false 0) zero offset cs = .ok sum) :
    scanWords (.gap false 0) zero 0 (Text.trimStart cs) = .ok sum := by
  unfold Text.trimStart
  induction cs generalizing offset with
  | nil => exact h
  | cons c cs ih =>
      cases hc : Text.isBlank c with
      | true =>
          rw [List.dropWhile_cons_of_pos hc]
          simp only [scanWords, wordsStep, digit?_of_isBlank hc, hc, if_true] at h
          exact ih h
      | false =>
          rw [List.dropWhile_cons_of_neg (by simp [hc])]
          exact scanWords_of_unplaced rfl h 0

/-- A blank at the end of the text changes nothing. -/
theorem scanWords_of_append_blank
    (hc : Text.isBlank c = true)
    (h : scanWords m total offset (cs ++ [c]) = .ok sum) :
    scanWords m total offset cs = .ok sum := by
  induction cs generalizing m total offset with
  | nil =>
      have hdigit := digit?_of_isBlank hc
      simp only [List.nil_append, scanWords] at h ⊢
      cases m with
      | gap started start => simpa [wordsStep, hdigit, hc] using h
      | whole n => simpa [wordsStep, hdigit, hc] using h
      | point n f mark =>
          simp only [wordsStep, hdigit, hc, if_true] at h
          refine wordsEnd_of_unplaced ?_ h
          rfl
      | name n f letters =>
          simp only [wordsStep, hdigit, hc, if_true] at h
          cases hitem : plusItem total n f letters.reverse with
          | error why => simp [hitem, Bind.bind, Except.bind] at h
          | ok total' =>
              simp only [hitem, Bind.bind, Except.bind] at h
              rw [← h]
              exact hitem
  | cons d cs ih =>
      simp only [List.cons_append, scanWords] at h ⊢
      cases hstep : wordsStep m total offset d with
      | error why => simp [hstep] at h
      | ok stepped =>
          rw [hstep] at h
          exact ih h

/-- A text that is read as a span is read as the same span without the blanks at its ends. -/
theorem scanWords_trim
    (h : scanWords (.gap false 0) zero 0 cs = .ok sum) :
    scanWords (.gap false 0) zero 0 (Text.trim cs) = .ok sum := by
  suffices hend : ∀ l : List Char,
      scanWords (.gap false 0) zero 0 l.reverse = .ok sum →
        scanWords (.gap false 0) zero 0 (l.dropWhile Text.isBlank).reverse = .ok sum by
    refine hend (Text.trimStart cs).reverse ?_
    rw [List.reverse_reverse]
    exact scanWords_trimStart h
  intro l h
  induction l with
  | nil => exact h
  | cons c l ih =>
      cases hc : Text.isBlank c with
      | true =>
          rw [List.reverse_cons] at h
          rw [List.dropWhile_cons_of_pos hc]
          exact ih (scanWords_of_append_blank hc h)
      | false =>
          rw [List.dropWhile_cons_of_neg (by simp [hc])]
          exact h

/-- The zero that needs no unit is the only text that is not scanned. -/
theorem ofWords_trim
    (positive : sum ≠ zero)
    (h : ofWords cs = .ok sum) :
    ofWords (Text.trim cs) = .ok sum := by
  have hscan : scanWords (.gap false 0) zero 0 cs = .ok sum := by
    unfold ofWords at h
    split at h
    · cases h
      exact absurd rfl positive
    · exact h
  have htrim := scanWords_trim hscan
  unfold ofWords
  split
  · rename_i hzero
    rw [hzero] at htrim
    cases htrim
  · exact htrim

end Span
end Timetable
