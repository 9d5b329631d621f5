import Timetable.Text.Blank

/-!
# Cutting texts

Cutting a text at a kind of character is splitting a list at the elements of a
predicate, so what is known of splitting holds of cutting.  Cutting at one
character undoes writing that character between texts without it.  The words of
a text do not change when blanks are taken off its ends, and a blank inside
separates the words before it from those behind it.

Main results:

* cutting at a character is the inverse of writing it between
  (pieces_intercalate, intercalate_pieces);
* a trimmed text has the same words (words_trim).
-/

namespace Timetable
namespace Text

variable {cut : Char → Bool}

theorem pieces_eq_splitOnP
    (cut : Char → Bool)
    (cs : List Char) :
    pieces cut cs = cs.splitOnP cut := by
  induction cs with
  | nil => rw [pieces_nil, List.splitOnP_nil]
  | cons c cs ih =>
      rw [List.splitOnP_cons_eq_if_modifyHead, ← ih]
      cases hc : cut c with
      | true => rw [pieces_cons_of_cut cs hc, if_pos rfl]
      | false =>
          obtain ⟨p, ps, hp, hcons⟩ := pieces_cons_of_not_cut cs hc
          rw [hcons, hp, if_neg (by decide), List.modifyHead_cons]

/-- At a cut the pieces before it and those behind it meet. -/
theorem pieces_append_cut
    {c : Char}
    (a b : List Char)
    (h : cut c = true) :
    pieces cut (a ++ c :: b) = pieces cut a ++ pieces cut b := by
  simp only [pieces_eq_splitOnP, List.splitOnP_append_cons a b h]

/-- A text without the cutting character is its only piece. -/
theorem pieces_of_not_mem
    {c : Char}
    {cs : List Char}
    (h : c ∉ cs) :
    pieces (· == c) cs = [cs] := by
  rw [pieces_eq_splitOnP, List.splitOnP_eq_singleton]
  intro d hd
  rw [beq_eq_false_iff_ne]
  rintro rfl
  exact h hd

/-- Two texts without the cutting character and with it between them are the two pieces. -/
theorem pieces_of_two
    {c : Char}
    {a b : List Char}
    (ha : c ∉ a)
    (hb : c ∉ b) :
    pieces (· == c) (a ++ c :: b) = [a, b] := by
  rw [pieces_append_cut a b (by simp), pieces_of_not_mem ha, pieces_of_not_mem hb]
  rfl

/-- Texts with a character between them that none of them holds are cut apart again. -/
theorem pieces_intercalate
    {c : Char}
    {ps : List (List Char)}
    (uncut : ∀ p ∈ ps, c ∉ p)
    (some : ps ≠ []) :
    pieces (· == c) ([c].intercalate ps) = ps := by
  rw [pieces_eq_splitOnP]
  exact List.splitOn_intercalate c uncut some

/-- A text is its pieces with the cutting character between them. -/
theorem intercalate_pieces
    (c : Char)
    (cs : List Char) :
    [c].intercalate (pieces (· == c) cs) = cs := by
  rw [pieces_eq_splitOnP]
  exact List.intercalate_splitOn c

/-- A text with one piece is that piece. -/
theorem eq_of_pieces_eq_one
    {c : Char}
    {cs p : List Char}
    (h : pieces (· == c) cs = [p]) :
    cs = p := by
  have hjoin := intercalate_pieces c cs
  rw [h] at hjoin
  simpa [List.intercalate] using hjoin.symm

/-- A text with two pieces has the cutting character between them. -/
theorem eq_of_pieces_eq_two
    {c : Char}
    {cs p q : List Char}
    (h : pieces (· == c) cs = [p, q]) :
    cs = p ++ c :: q := by
  have hjoin := intercalate_pieces c cs
  rw [h] at hjoin
  simpa [List.intercalate] using hjoin.symm

/-- A text begins with its first piece, behind which a second one stands behind a cut. -/
theorem eq_append_of_pieces
    {c : Char}
    {cs p : List Char}
    {ps : List (List Char)}
    (h : pieces (· == c) cs = p :: ps) :
    ∃ rest, cs = p ++ rest ∧ (ps ≠ [] → ∃ more, rest = c :: more) := by
  have hjoin := intercalate_pieces c cs
  rw [h] at hjoin
  cases ps with
  | nil => exact ⟨[], by simpa [List.intercalate] using hjoin.symm, by simp⟩
  | cons q ps =>
      rw [List.intercalate_cons_cons, List.append_assoc] at hjoin
      exact ⟨_, hjoin.symm, fun _ => ⟨_, rfl⟩⟩

/-- No piece holds the cutting character. -/
theorem not_mem_of_mem_pieces
    {c : Char}
    {cs p : List Char}
    (h : p ∈ pieces (· == c) cs) :
    c ∉ p := by
  intro hc
  have := not_cut_of_mem_pieces h hc
  simp at this

/-- A character that is no cut stands in one of the pieces. -/
theorem exists_piece_of_mem
    {cs : List Char}
    {c : Char}
    (hc : c ∈ cs)
    (h : cut c = false) :
    ∃ p ∈ pieces cut cs, c ∈ p := by
  induction cs with
  | nil => simp at hc
  | cons d ds ih =>
      cases hd : cut d with
      | true =>
          rw [pieces_cons_of_cut ds hd]
          rcases List.mem_cons.1 hc with rfl | hc
          · simp [h] at hd
          · obtain ⟨p, hp, hcp⟩ := ih hc
            exact ⟨p, List.mem_cons_of_mem _ hp, hcp⟩
      | false =>
          obtain ⟨q, qs, hq, hcons⟩ := pieces_cons_of_not_cut ds hd
          rw [hcons]
          rcases List.mem_cons.1 hc with rfl | hc
          · exact ⟨_, List.mem_cons_self, List.mem_cons_self⟩
          · obtain ⟨p, hp, hcp⟩ := ih hc
            rw [hq] at hp
            rcases List.mem_cons.1 hp with rfl | hp
            · exact ⟨_, List.mem_cons_self, List.mem_cons_of_mem d hcp⟩
            · exact ⟨p, List.mem_cons_of_mem _ hp, hcp⟩

/-- A text of cuts alone has no other pieces than empty ones. -/
theorem eq_nil_of_mem_pieces
    {cs p : List Char}
    (all : ∀ c ∈ cs, cut c = true)
    (h : p ∈ pieces cut cs) :
    p = [] := by
  induction cs with
  | nil => simpa using h
  | cons c cs ih =>
      rw [pieces_cons_of_cut cs (all c List.mem_cons_self)] at h
      rcases List.mem_cons.1 h with rfl | h
      · rfl
      · exact ih (fun d hd => all d (List.mem_cons_of_mem c hd)) h

/-- A blank separates the words before it from those behind it. -/
theorem words_append_blank
    {c : Char}
    (a b : List Char)
    (h : isBlank c = true) :
    words (a ++ c :: b) = words a ++ words b := by
  simp only [words, pieces_append_cut a b h, List.filter_append]

theorem words_trimStart (cs : List Char) : words (trimStart cs) = words cs := by
  unfold trimStart
  induction cs with
  | nil => rfl
  | cons c cs ih =>
      cases hc : isBlank c with
      | true => rw [List.dropWhile_cons_of_pos hc, ih, words_cons_blank cs hc]
      | false => rw [List.dropWhile_cons_of_neg (by simp [hc])]

theorem words_trimEnd (cs : List Char) : words (trimEnd cs) = words cs := by
  suffices h : ∀ l : List Char, words (l.dropWhile isBlank).reverse = words l.reverse by
    simpa only [trimEnd, List.reverse_reverse] using h cs.reverse
  intro l
  induction l with
  | nil => rfl
  | cons c l ih =>
      cases hc : isBlank c with
      | true =>
          rw [List.dropWhile_cons_of_pos hc, ih, List.reverse_cons, words_append_blank _ _ hc,
            words_nil, List.append_nil]
      | false => rw [List.dropWhile_cons_of_neg (by simp [hc])]

/-- A trimmed text has the same words. -/
theorem words_trim (cs : List Char) : words (trim cs) = words cs := by
  rw [trim, words_trimEnd, words_trimStart]

end Text
end Timetable
