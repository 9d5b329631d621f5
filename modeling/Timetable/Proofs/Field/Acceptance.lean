import Timetable.Expression.Parser
import Timetable.Proofs.Field.Denotation

/-!
# What a field accepts

A field is accepted exactly if each of its ranges is read, and an empty range
counts for nothing.  So what is accepted is written in the grammar, range by
range, up to a hyphen behind a star; and its mask holds a number of the field
exactly if the text is more than commas.  A text of commas alone is accepted as
well, and matches nothing.

The fields of an accepted expression are words of its text or stand-ins, so no
field of it matches nothing unless one of the words is made of commas.

Main results:

* the numbers of a field are those of its ranges (has_compile_iff);
* a field matches something unless it is made of commas (hasValue_iff);
* what is accepted is written in the grammar (accepted_in_grammar).
-/

namespace Timetable

/-- Lists that are related member by member: every member of either is related to one of the
other. -/
theorem exists_of_forall₂
    {α β : Type}
    {R : α → β → Prop}
    {as : List α}
    {bs : List β}
    (h : List.Forall₂ R as bs) :
    (∀ a ∈ as, ∃ b ∈ bs, R a b) ∧ ∀ b ∈ bs, ∃ a ∈ as, R a b := by
  induction h with
  | nil => simp
  | cons hab _ ih =>
      simp only [List.mem_cons, forall_eq_or_imp, exists_eq_or_imp]
      exact ⟨⟨Or.inl hab, fun a ha => Or.inr (ih.1 a ha)⟩,
        Or.inl hab, fun b hb => Or.inr (ih.2 b hb)⟩

namespace Mask

/-- The mask holds a number that the field admits. -/
def HasValue
    (m : Mask)
    (b : Bounds) :
    Prop :=
  ∃ n, b.low ≤ n ∧ n ≤ b.high ∧ m.has n = true

end Mask

namespace Field

variable {b : Bounds} {text : List Char} {m : Mask}

/-- The ranges of an accepted field are read. -/
theorem read_of_compile
    (h : compile b text = .ok m)
    {range : List Char}
    (hrange : range ∈ Text.pieces (· == ',') text)
    (some : range ≠ []) :
    ∃ s, readRange b range = .ok s := by
  obtain ⟨strides, hall, -⟩ := compileRanges_eq_ok_iff.1 h
  have hmem : range ∈ (Text.pieces (· == ',') text).filter fun range => !range.isEmpty := by
    simp [hrange, some]
  obtain ⟨s, -, hread⟩ := (exists_of_forall₂ hall).1 range hmem
  exact ⟨s, hread⟩

/-- The numbers of an accepted field are those of its ranges. -/
theorem has_compile_iff
    (h : compile b text = .ok m)
    (n : Nat) :
    m.has n = true ↔
      ∃ range ∈ Text.pieces (· == ',') text, range ≠ [] ∧
        ∃ s, readRange b range = .ok s ∧ s.mask.has n = true := by
  obtain ⟨strides, hall, rfl⟩ := compileRanges_eq_ok_iff.1 h
  obtain ⟨hstrides, hranges⟩ := exists_of_forall₂ hall
  rw [Stride.has_unionAll, Mask.has_empty]
  constructor
  · rintro (hempty | ⟨s, hs, hn⟩)
    · simp at hempty
    · obtain ⟨range, hmem, hread⟩ := hranges s hs
      obtain ⟨hrange, some⟩ := List.mem_filter.1 hmem
      exact ⟨range, hrange, by simpa using some, s, hread, hn⟩
  · rintro ⟨range, hrange, some, s, hread, hn⟩
    obtain ⟨s', hs', hread'⟩ := hstrides range (List.mem_filter.2 ⟨hrange, by simpa using some⟩)
    rw [hread, Except.ok.injEq] at hread'
    exact Or.inr ⟨s', hs', hread' ▸ hn⟩

/-- An accepted field matches something unless it is made of commas. -/
theorem hasValue_iff
    (small : b.high ≤ 62)
    (h : compile b text = .ok m) :
    m.HasValue b ↔ ∃ c ∈ text, c ≠ ',' := by
  constructor
  · rintro ⟨n, -, -, hn⟩
    obtain ⟨range, hrange, some, -⟩ := (has_compile_iff h n).1 hn
    by_contra hcommas
    push Not at hcommas
    exact some (Text.eq_nil_of_mem_pieces (by simpa using hcommas) hrange)
  · rintro ⟨c, hc, hcomma⟩
    have uncut : (c == ',') = false := by
      simpa using hcomma
    obtain ⟨range, hrange, hcr⟩ :
        ∃ range ∈ Text.pieces (· == ',') text, c ∈ range :=
      Text.exists_piece_of_mem hc uncut
    have some : range ≠ [] := List.ne_nil_of_mem hcr
    obtain ⟨s, hread⟩ := read_of_compile h hrange some
    have within := within_of_readRange hread
    have hlast : s.first ≤ b.high := Nat.le_trans within.inOrder within.below
    have hfirst : s.mask.has s.first = true :=
      (Stride.has_mask within small (by omega)).2 within.holds_first
    exact ⟨s.first, within.above, hlast,
      (has_compile_iff h _).2 ⟨range, hrange, some, s, hread, hfirst⟩⟩

end Field

/-! ### The fields of an expression -/

/-- The mask of a field of the pattern. -/
def Pattern.mask (p : Pattern) : Part → Mask
  | .second => p.second
  | .minute => p.minute
  | .hour => p.hour
  | .dayOfMonth => p.dayOfMonth
  | .month => p.month
  | _ => p.dayOfWeek

/-- Every field of the pattern matches something. -/
def Pattern.Satisfiable (p : Pattern) : Prop :=
  ∀ part ∈ Part.fields, (p.mask part).HasValue part.bounds

namespace Parser

theorem compile_of_readField
    {part : Part}
    {text : List Char}
    {m : Mask}
    (h : readField part text = .ok m) :
    Field.compile part.bounds text = .ok m := by
  unfold readField at h
  split at h
  · rename_i m' hm
    cases h
    exact hm
  · simp at h

/-- The masks of a pattern are those of the texts of its fields. -/
theorem compile_of_readPattern
    {layout : Layout}
    {l : Location}
    {text : List Char}
    {p : Pattern}
    (h : readPattern layout l text = .ok p) :
    ∀ part ∈ Part.fields,
      Field.compile part.bounds (layout.fieldText (Text.words text) part) =
        .ok (p.mask part) := by
  unfold readPattern at h
  dsimp only at h
  split at h
  · obtain ⟨second, hsecond, h⟩ := ok_of_bind h
    obtain ⟨minute, hminute, h⟩ := ok_of_bind h
    obtain ⟨hour, hhour, h⟩ := ok_of_bind h
    obtain ⟨dayOfMonth, hdayOfMonth, h⟩ := ok_of_bind h
    obtain ⟨month, hmonth, h⟩ := ok_of_bind h
    obtain ⟨dayOfWeek, hdayOfWeek, h⟩ := ok_of_bind h
    cases h
    simp only [Part.fields, List.forall_mem_cons, List.not_mem_nil, false_implies, implies_true,
      and_true]
    exact ⟨compile_of_readField hsecond, compile_of_readField hminute,
      compile_of_readField hhour, compile_of_readField hdayOfMonth,
      compile_of_readField hmonth, compile_of_readField hdayOfWeek⟩
  · simp at h

end Parser

/-- The text of a field is one of the given texts or its stand-in. -/
theorem Layout.fieldText_mem
    (layout : Layout)
    (texts : List (List Char))
    (part : Part) :
    layout.fieldText texts part ∈ texts ∨ layout.fieldText texts part = part.standIn := by
  unfold fieldText
  split
  · rw [List.getD_eq_getElem?_getD]
    cases hat : texts[layout.position part]? with
    | none => exact Or.inr rfl
    | some text => exact Or.inl (List.mem_of_getElem? hat)
  · exact Or.inr rfl

/-- A pattern that is read matches something in every field, unless a word of its text is made
of commas. -/
theorem Parser.satisfiable_of_readPattern
    {layout : Layout}
    {l : Location}
    {text : List Char}
    {p : Pattern}
    (h : readPattern layout l text = .ok p)
    (words : ∀ w ∈ Text.words text, ∃ c ∈ w, c ≠ ',') :
    p.Satisfiable := by
  intro part hpart
  have hcompile := compile_of_readPattern h part hpart
  have small : part.bounds.high ≤ 62 := by
    cases part <;> decide
  rw [Field.hasValue_iff small hcompile]
  rcases layout.fieldText_mem (Text.words text) part with hmem | hstand
  · exact words _ hmem
  · rw [hstand]
    cases part <;> exact ⟨_, List.mem_cons_self, by decide⟩

/-- The patterns that have names match the lowest number in every field. -/
theorem Expression.satisfiable_of_namedPattern
    {l : Location}
    {name : String}
    {p : Pattern}
    (h : namedPattern? l name = some p) :
    p.Satisfiable := by
  have hnamed : p ∈ [yearly l, monthly l, weekly l, daily l, hourly l] := by
    unfold namedPattern? at h
    grind
  have hlow : ∀ part, (p.mask part).has part.bounds.low = true := by
    intro part
    simp only [List.mem_cons, List.not_mem_nil, or_false] at hnamed
    rcases hnamed with rfl | rfl | rfl | rfl | rfl <;>
      cases part <;>
      simp [yearly, monthly, weekly, daily, hourly, Pattern.mask, Part.bounds, Bounds.seconds,
        Bounds.minutes, Bounds.hours, Bounds.daysOfMonth, Bounds.months, Bounds.daysOfWeek,
        Field.unrestricted, Mask.has_between]
  intro part _
  exact ⟨part.bounds.low, Nat.le_refl _, by cases part <;> decide, hlow part⟩

theorem Expression.readEvery_ne_pattern
    (text : List Char)
    (p : Pattern) :
    readEvery text ≠ .ok (.pattern p) := by
  unfold readEvery
  repeat' split
  all_goals simp

namespace Parser

/-- What is left of a text behind its location is made of words of the text. -/
theorem words_of_takeLocation
    {p : Parser}
    {zones : Zones}
    {text body : List Char}
    {l : Location}
    (h : p.takeLocation zones text = .ok (l, body)) :
    ∀ w ∈ Text.words body, w ∈ Text.words text := by
  unfold takeLocation at h
  split at h
  · obtain ⟨l', -, h⟩ := ok_of_bind h
    cases h
    intro w hw
    rw [Text.words_trim] at hw
    have hcut : text = text.takeWhile (!Text.isBlank ·) ++ text.dropWhile (!Text.isBlank ·) :=
      List.takeWhile_append_dropWhile.symm
    cases hdrop : text.dropWhile (!Text.isBlank ·) with
    | nil => simp [hdrop] at hw
    | cons c rest =>
        have hblank : Text.isBlank c = true := by
          have := List.head_dropWhile_not (p := (!Text.isBlank ·)) (l := text) (by simp [hdrop])
          simpa [hdrop] using this
        rw [hdrop] at hcut
        rw [hcut, Text.words_append_blank _ _ hblank, List.mem_append]
        right
        simpa [hdrop] using hw
  · cases h
    exact fun w hw => hw

/-- A pattern that is read has a name, or its fields are words of the text. -/
theorem origin_of_parseWith
    {p : Parser}
    {zones : Zones}
    {text : String}
    {q : Pattern}
    (h : p.parseWith zones text = .ok (.pattern q)) :
    (∃ l name, Expression.namedPattern? l name = some q) ∨
      ∃ l body, readPattern p.layout l body = .ok q ∧
        ∀ w ∈ Text.words body, w ∈ Text.words text.toList := by
  unfold parseWith at h
  split at h
  · simp at h
  · split at h
    · simp at h
    · rename_i l body htake
      unfold readBody at h
      split at h
      · split at h
        · unfold Expression.readDescriptor at h
          split at h
          · rename_i hnamed
            cases h
            exact Or.inl ⟨_, _, hnamed⟩
          · exact absurd h (Expression.readEvery_ne_pattern _ q)
        · simp at h
      · split at h
        · rename_i hread
          cases h
          exact Or.inr ⟨l, body, hread, words_of_takeLocation htake⟩
        · simp at h

/-- An expression that is read as a pattern matches something in every field, unless a word of
its text is made of commas. -/
theorem satisfiable_of_parse
    {p : Parser}
    {text : String}
    {q : Pattern}
    (h : p.parse text = .ok (.pattern q))
    (words : ∀ w ∈ Text.words text.toList, ∃ c ∈ w, c ≠ ',') :
    q.Satisfiable := by
  rcases origin_of_parseWith h with ⟨l, name, hnamed⟩ | ⟨l, body, hread, hbody⟩
  · exact Expression.satisfiable_of_namedPattern hnamed
  · exact satisfiable_of_readPattern hread fun w hw => words w (hbody w hw)

end Parser

namespace Field

/-- **What is accepted is written in the grammar.**  Each range of an accepted field that is not
empty has one step at most, which is a numeral above zero; if no hyphen stands behind a star, it
is a range expression whose stride keeps to the bounds.  The mask of the field holds a number of
the field exactly if the text is more than commas.  So an expression that is read as a pattern
matches something in every field, unless a word of its text is made of commas. -/
theorem accepted_in_grammar :
    (∀ (b : Bounds) (text : List Char) (m : Mask),
      b.high ≤ 62 →
      compile b text = .ok m →
        (∀ range ∈ Text.pieces (· == ',') text,
          range ≠ [] →
            StepsOnce range ∧
              (¬ HyphenBehindStar range → ∃ s, Range b range s ∧ s.Within b)) ∧
        (m.HasValue b ↔ ∃ c ∈ text, c ≠ ',')) ∧
      ∀ (p : Parser) (text : String) (q : Pattern),
        p.parse text = .ok (.pattern q) →
        (∀ w ∈ Text.words text.toList, ∃ c ∈ w, c ≠ ',') →
          q.Satisfiable := by
  refine ⟨fun b text m small h => ⟨?_, hasValue_iff small h⟩,
    fun p text q h words => Parser.satisfiable_of_parse h words⟩
  intro range hrange some
  obtain ⟨s, hread⟩ := read_of_compile h hrange some
  exact ⟨stepsOnce_of_readRange hread,
    fun straight => ⟨s, range_of_readRange straight hread, within_of_readRange hread⟩⟩

theorem accepted_in_grammar_quarters :
    (∃ m, compile Bounds.minutes "+15,,30-45/15".toList = .ok m ∧
      (∃ s, Range Bounds.minutes "30-45/15".toList s ∧ s.Within Bounds.minutes) ∧
      m.HasValue Bounds.minutes) ∧
    ∃ q, Parser.standard.parse "+15,,30-45/15 * * * *" = .ok (.pattern q) ∧
      q.Satisfiable := by
  obtain ⟨hfield, hparse⟩ := accepted_in_grammar
  obtain ⟨m, hm⟩ : ∃ m, compile Bounds.minutes "+15,,30-45/15".toList = .ok m := ⟨_, rfl⟩
  obtain ⟨hranges, hvalue⟩ := hfield Bounds.minutes _ m (by decide) hm
  obtain ⟨q, hq⟩ : ∃ q, Parser.standard.parse "+15,,30-45/15 * * * *" = .ok (.pattern q) :=
    ⟨_, rfl⟩
  refine ⟨⟨m, hm, ?_, hvalue.2 ⟨'+', by decide, by decide⟩⟩, q, hq, ?_⟩
  · refine (hranges _ (by decide) (by decide)).2 ?_
    rintro ⟨mark, rest, hstar, hrange⟩
    simp only [isStar, Bool.or_eq_true, beq_iff_eq] at hstar
    rcases hstar with rfl | rfl <;> simp at hrange
  · have hwords : Text.words "+15,,30-45/15 * * * *".toList =
        "+15,,30-45/15".toList :: List.replicate 4 ['*'] := rfl
    refine hparse _ _ q hq ?_
    rw [hwords, List.forall_mem_cons]
    refine ⟨⟨'+', by decide, by decide⟩, fun w hw => ⟨'*', ?_, by decide⟩⟩
    rw [List.eq_of_mem_replicate hw]
    exact List.mem_cons_self

/-- A comma is accepted, though no range expression is empty, and it matches nothing; what stands
behind a hyphen behind a star is accepted, whatever it is. -/
theorem comma_accepted :
    (compile Bounds.minutes ",".toList = .ok Mask.empty ∧
      [] ∈ Text.pieces (· == ',') ",".toList ∧
      (∀ s, ¬ Range Bounds.minutes [] s) ∧
      ¬ Mask.empty.HasValue Bounds.minutes) ∧
    (∃ m, compile Bounds.minutes "*-5".toList = .ok m) ∧
    "*-5".toList ∈ Text.pieces (· == ',') "*-5".toList ∧
    ∀ s, ¬ Range Bounds.minutes "*-5".toList s := by
  have named : Bounds.minutes.WellNamed := ⟨by simp [Bounds.minutes], by simp [Bounds.minutes]⟩
  refine ⟨⟨rfl, by decide, fun s h => (h.uncut named).1 rfl, ?_⟩, ⟨_, rfl⟩, by decide, ?_⟩
  · rintro ⟨n, -, -, hn⟩
    simp at hn
  · intro s
    exact HyphenBehindStar.not_range named ⟨['*'], ['5'], by decide, rfl⟩

end Field
end Timetable
