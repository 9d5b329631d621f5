import Timetable.Proofs.Text.Cutting

/-!
# Spacing

A text is made of words when it is the words in their order, each without a blank
in it, with blanks before, between and behind them: any blanks, and at least one
between two words.  This says nothing of how a text is cut.  The words that cutting
gives are the only ones that a text is made of, so nothing of the spacing is in
them, and every list of words makes up some text.

Main results:

* the words of a text are what it is made of (words_eq_iff);
* what a text begins with, when it has no blank, its first word begins with
  (Spaced.prefix_head);
* trimming takes the blanks off both ends and nothing else (trim_of_trimmed).
-/

namespace Timetable
namespace Text

/-- Nothing but blanks. -/
def Blanks (cs : List Char) : Prop :=
  ∀ c ∈ cs, isBlank c = true

/-- No blank at all. -/
def Solid (cs : List Char) : Prop :=
  ∀ c ∈ cs, isBlank c = false

/-- No blank at either end. -/
def Trimmed (cs : List Char) : Prop :=
  (∀ c ∈ cs.head?, isBlank c = false) ∧ ∀ c ∈ cs.getLast?, isBlank c = false

instance (cs : List Char) : Decidable (Blanks cs) :=
  List.decidableBAll _ cs

instance (cs : List Char) : Decidable (Solid cs) :=
  List.decidableBAll _ cs

instance (cs : List Char) : Decidable (Trimmed cs) :=
  @instDecidableAnd _ _ (Option.decidableForallMem cs.head?) (Option.decidableForallMem cs.getLast?)

/-- The text is made of the words, in their order, with blanks around them. -/
inductive Spaced : List (List Char) → List Char → Prop
  | blanks
      {gap : List Char}
      (blank : Blanks gap) :
      Spaced [] gap
  | word
      {gap w rest : List Char}
      {ws : List (List Char)}
      (blank : Blanks gap)
      (solid : Solid w)
      (some : w ≠ [])
      (apart : ∀ c ∈ rest.head?, isBlank c = true)
      (spaced : Spaced ws rest) :
      Spaced (w :: ws) (gap ++ w ++ rest)

variable {cs gap w rest : List Char} {ws : List (List Char)} {c : Char}

theorem Blanks.nil : Blanks [] :=
  List.forall_mem_nil _

theorem Blanks.cons (hc : isBlank c = true) (blank : Blanks gap) : Blanks (c :: gap) :=
  List.forall_mem_cons.2 ⟨hc, blank⟩

theorem Blanks.tail (blank : Blanks gap) : Blanks gap.tail :=
  fun c hc => blank c (List.mem_of_mem_tail hc)

theorem Solid.cons (hc : isBlank c = false) (solid : Solid w) : Solid (c :: w) :=
  List.forall_mem_cons.2 ⟨hc, solid⟩

/-- Leading blanks separate nothing. -/
theorem words_append_of_blanks (blank : Blanks gap) : words (gap ++ cs) = words cs := by
  induction gap with
  | nil => rfl
  | cons c gap ih =>
      obtain ⟨hc, hgap⟩ := List.forall_mem_cons.1 blank
      rw [List.cons_append, words_cons_blank _ hc, ih hgap]

/-- A text without blanks is its only word. -/
theorem words_of_solid (solid : Solid w) (some : w ≠ []) : words w = [w] := by
  have hpieces : pieces isBlank w = [w] := by
    rw [pieces_eq_splitOnP, List.splitOnP_eq_singleton]
    exact solid
  simp [words, hpieces, some]

/-- A word at the beginning of a text, with a blank or nothing behind it, is its first word. -/
theorem words_append_of_solid
    (solid : Solid w)
    (some : w ≠ [])
    (apart : ∀ c ∈ rest.head?, isBlank c = true) :
    words (w ++ rest) = w :: words rest := by
  cases rest with
  | nil => rw [List.append_nil, words_of_solid solid some, words_nil]
  | cons c rest =>
      have hc : isBlank c = true := apart c rfl
      rw [words_append_blank w rest hc, words_of_solid solid some, words_cons_blank rest hc]
      rfl

/-- A text has no other words than those it is made of. -/
theorem Spaced.words_eq (h : Spaced ws cs) : words cs = ws := by
  induction h with
  | @blanks gap blank =>
      rw [← List.append_nil gap, words_append_of_blanks blank, words_nil]
  | word blank solid some apart spaced ih =>
      rw [List.append_assoc, words_append_of_blanks blank, words_append_of_solid solid some apart,
        ih]

/-- The words that a text is made of have no blank and are not empty. -/
theorem Spaced.of_mem (h : Spaced ws cs) (hw : w ∈ ws) : Solid w ∧ w ≠ [] := by
  rw [← h.words_eq] at hw
  exact ⟨fun c hc => isBlank_of_mem_words hw hc, ne_nil_of_mem_words hw⟩

theorem Spaced.cons_blank (hc : isBlank c = true) (h : Spaced ws cs) : Spaced ws (c :: cs) := by
  cases h with
  | blanks blank => exact .blanks (blank.cons hc)
  | word blank solid some apart spaced => exact .word (blank.cons hc) solid some apart spaced

/-- A character that is no blank begins a word, or goes on with the one behind it. -/
theorem Spaced.cons_solid (hc : isBlank c = false) (h : Spaced ws cs) :
    ∃ vs, Spaced vs (c :: cs) := by
  have solid : Solid [c] := Solid.cons hc (List.forall_mem_nil _)
  cases h with
  | @blanks gap blank =>
      refine ⟨[[c]], ?_⟩
      exact .word Blanks.nil solid (by simp) (fun d hd => blank d (List.mem_of_mem_head? hd))
        (.blanks blank)
  | @word gap w rest ws blank hw some apart spaced =>
      cases gap with
      | nil =>
          exact ⟨(c :: w) :: ws, .word Blanks.nil (hw.cons hc) (by simp) apart spaced⟩
      | cons d gap =>
          have hd : ∀ e ∈ (d :: gap ++ w ++ rest).head?, isBlank e = true := by
            rintro e ⟨⟩
            exact blank d List.mem_cons_self
          exact ⟨[c] :: w :: ws,
            .word Blanks.nil solid (by simp) hd (.word blank hw some apart spaced)⟩

/-- Every text is made of words. -/
theorem exists_spaced (cs : List Char) : ∃ ws, Spaced ws cs := by
  induction cs with
  | nil => exact ⟨[], .blanks Blanks.nil⟩
  | cons c cs ih =>
      obtain ⟨ws, h⟩ := ih
      cases hc : isBlank c with
      | true => exact ⟨ws, h.cons_blank hc⟩
      | false => exact h.cons_solid hc

/-- The words of a text are what it is made of. -/
theorem words_eq_iff : words cs = ws ↔ Spaced ws cs := by
  constructor
  · rintro rfl
    obtain ⟨ws, h⟩ := exists_spaced cs
    rwa [h.words_eq]
  · exact Spaced.words_eq

/-- Words without blanks make up a text. -/
theorem exists_text
    (words : ∀ w ∈ ws, Solid w ∧ w ≠ []) :
    ∃ text, Spaced ws text ∧ ∀ c ∈ text.head?, isBlank c = true := by
  induction ws with
  | nil => exact ⟨[], .blanks Blanks.nil, by simp⟩
  | cons w ws ih =>
      obtain ⟨rest, spaced, apart⟩ := ih fun v hv => words v (List.mem_cons_of_mem w hv)
      obtain ⟨solid, some⟩ := words w List.mem_cons_self
      have blank : Blanks [' '] := Blanks.nil.cons (by decide)
      refine ⟨[' '] ++ w ++ rest, .word blank solid some apart spaced, ?_⟩
      rintro c ⟨⟩
      decide

/-- What a text begins with, when it has no blank, the first of its words begins with. -/
theorem Spaced.prefix_head
    {lead : List Char}
    (h : Spaced ws cs)
    (begins : lead <+: cs)
    (solid : Solid lead)
    (some : lead ≠ []) :
    ∃ w ∈ ws.head?, lead <+: w := by
  obtain ⟨c, more, rfl⟩ := List.exists_cons_of_ne_nil some
  have hc : isBlank c = false := solid c List.mem_cons_self
  cases h with
  | blanks blank =>
      have := blank c (begins.subset List.mem_cons_self)
      simp [hc] at this
  | @word gap w rest ws blank hw someWord apart spaced =>
      refine ⟨w, rfl, ?_⟩
      cases gap with
      | cons d gap =>
          obtain ⟨rfl, -⟩ := List.cons_prefix_cons.1 begins
          have := blank c List.mem_cons_self
          simp [hc] at this
      | nil =>
          rcases List.prefix_or_prefix_of_prefix begins (List.prefix_append w rest) with h | h
          · exact h
          · -- Behind the word stands a blank or nothing, and the lead has no blank to match it.
            obtain ⟨behind, hlead⟩ := h
            rw [← hlead] at begins solid ⊢
            have hbehind : behind <+: rest := (List.prefix_append_right_inj w).1 begins
            cases behind with
            | nil => simp
            | cons d behind =>
                obtain ⟨more, rfl⟩ := hbehind
                have hblank : isBlank d = true := apart d rfl
                have hsolid : isBlank d = false := solid d (by simp)
                simp [hblank] at hsolid

/-- A text that begins with no blank loses nothing at its beginning. -/
theorem dropWhile_of_head (h : ∀ c ∈ cs.head?, isBlank c = false) : cs.dropWhile isBlank = cs := by
  cases cs with
  | nil => rfl
  | cons c cs => exact List.dropWhile_cons_of_neg (by simp [h c rfl])

/-- Trimming takes the blanks off both ends of a text and leaves what is between them. -/
theorem trim_of_trimmed
    {tail : List Char}
    (before : Blanks gap)
    (trimmed : Trimmed cs)
    (some : cs ≠ [])
    (behind : Blanks tail) :
    trim (gap ++ (cs ++ tail)) = cs := by
  have hstart : trimStart (gap ++ (cs ++ tail)) = cs ++ tail := by
    rw [trimStart, List.dropWhile_append_of_pos before]
    refine dropWhile_of_head fun c hc => trimmed.1 c ?_
    obtain ⟨d, ds, rfl⟩ := List.exists_cons_of_ne_nil some
    exact hc
  have hend : (tail.reverse ++ cs.reverse).dropWhile isBlank = cs.reverse := by
    rw [List.dropWhile_append_of_pos fun c hc => behind c (List.mem_reverse.1 hc)]
    refine dropWhile_of_head fun c hc => trimmed.2 c ?_
    rwa [List.head?_reverse] at hc
  rw [trim, hstart, trimEnd, List.reverse_append, hend, List.reverse_reverse]

end Text
end Timetable
