/-!
# Pieces of a text

Texts are handled as lists of characters.  Cutting a text at a kind of
character gives the pieces between the cuts; there is always one piece more
than there are cuts, so a piece may be empty.

Main results:

* there is always a first piece;
* no piece holds a character at which the text is cut.
-/

namespace Timetable
namespace Text

/-- Cut a text at every character of the given kind. -/
def pieces (cut : Char → Bool) : List Char → List (List Char)
  | [] => [[]]
  | c :: cs =>
      match pieces cut cs with
      | [] => [[]]
      | p :: ps => if cut c then [] :: p :: ps else (c :: p) :: ps

@[simp] theorem pieces_nil (cut : Char → Bool) :
    pieces cut [] = [[]] := by
  rfl

/-- There is always a first piece. -/
theorem pieces_ne_nil (cut : Char → Bool) (cs : List Char) :
    pieces cut cs ≠ [] := by
  cases cs with
  | nil => simp
  | cons c cs =>
      simp only [pieces]
      split
      · simp
      · split <;> simp

/-- A character of the cutting kind opens a new piece. -/
theorem pieces_cons_of_cut {cut : Char → Bool} {c : Char}
    (cs : List Char) (h : cut c = true) :
    pieces cut (c :: cs) = [] :: pieces cut cs := by
  cases hp : pieces cut cs with
  | nil => exact absurd hp (pieces_ne_nil cut cs)
  | cons p ps => simp [pieces, hp, h]

/-- Any other character extends the first piece. -/
theorem pieces_cons_of_not_cut {cut : Char → Bool} {c : Char}
    (cs : List Char) (h : cut c = false) :
    ∃ p ps, pieces cut cs = p :: ps ∧ pieces cut (c :: cs) = (c :: p) :: ps := by
  cases hp : pieces cut cs with
  | nil => exact absurd hp (pieces_ne_nil cut cs)
  | cons p ps => exact ⟨p, ps, rfl, by simp [pieces, hp, h]⟩

/-- No piece holds a character at which the text was cut. -/
theorem not_cut_of_mem_pieces {cut : Char → Bool} {cs p : List Char} {c : Char}
    (hp : p ∈ pieces cut cs) (hc : c ∈ p) :
    cut c = false := by
  induction cs generalizing p with
  | nil =>
      simp at hp
      simp [hp] at hc
  | cons d ds ih =>
      cases hd : cut d with
      | true =>
          rw [pieces_cons_of_cut ds hd] at hp
          rcases List.mem_cons.1 hp with rfl | hp
          · simp at hc
          · exact ih hp hc
      | false =>
          obtain ⟨q, qs, hq, hcons⟩ := pieces_cons_of_not_cut ds hd
          rw [hcons] at hp
          rcases List.mem_cons.1 hp with rfl | hp
          · rcases List.mem_cons.1 hc with rfl | hc
            · exact hd
            · exact ih (by rw [hq]; simp) hc
          · exact ih (by rw [hq]; exact List.mem_cons_of_mem q hp) hc

end Text
end Timetable
