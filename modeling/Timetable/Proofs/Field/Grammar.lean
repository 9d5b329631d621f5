import Timetable.Field
import Timetable.Proofs.Text.Cutting
import Timetable.Proofs.Text.Letters
import Timetable.Proofs.Text.Numerals

/-!
# The grammar of range expressions

A range expression is a value, two values with a hyphen between them or a star,
each with a step behind a slash or without one.  A value is a numeral or a name
of the field in letters of any case.  The grammar says of every range expression
which stride it means; a stride has to keep to the bounds of its field and to
move on.

The reader cuts at slashes and hyphens, which no value holds if the names of the
field are made of letters.  So it reads every range expression as the stride that
is meant.  The other way round it accepts nothing else, with one exception: it
never looks at what stands behind a hyphen behind a star.

Main results:

* every range expression is read as its stride (readRange_of_range);
* what is read without a hyphen behind a star is a range expression
  (range_of_readRange);
* what is read has one step at most (stepsOnce_of_readRange).
-/

namespace Timetable

namespace Stride

/-- The stride keeps to the bounds of a field, in order, and moves on by a word at most. -/
structure Within
    (b : Bounds)
    (s : Stride) :
    Prop where
  above : b.low ≤ s.first
  inOrder : s.first ≤ s.last
  below : s.last ≤ b.high
  moves : 1 ≤ s.step
  small : s.step ≤ 4294967295

theorem Within.check
    {b : Bounds}
    {s : Stride}
    (within : s.Within b) :
    Field.checkStride b s = .ok s :=
  Field.checkStride_eq_ok.2
    ⟨rfl, within.above, within.below, within.inOrder, within.moves⟩

end Stride

namespace Field

variable {b : Bounds}

/-- Values and the numbers for which they stand. -/
inductive Value (b : Bounds) : List Char → Nat → Prop
  | numeral
      {text : List Char}
      {n : Nat}
      (h : Text.Numeral text n) :
      Value b text n
  | name
      {text : List Char}
      {entry : String × Nat}
      (mem : entry ∈ b.names)
      (same : Text.sameLetters entry.1.toList text = true) :
      Value b text entry.2

/-- What stands before a step: one value, two values with a hyphen between them, or a star; in
the first and the last case a step runs up to the highest number of the field. -/
inductive Ends (b : Bounds) : List Char → Bool → Stride → Prop
  | value
      {v : List Char}
      {m : Nat}
      (first : Value b v m) :
      Ends b v true ⟨m, m, 1, false⟩
  | span
      {v w : List Char}
      {m n : Nat}
      (first : Value b v m)
      (last : Value b w n) :
      Ends b (v ++ '-' :: w) false ⟨m, n, 1, false⟩
  | star
      {mark : List Char}
      (isStar : isStar mark = true) :
      Ends b mark true ⟨b.low, b.high, 1, true⟩

/-- Range expressions and the strides that they mean; a star keeps its mark if its step is
one. -/
inductive Range (b : Bounds) : List Char → Stride → Prop
  | plain
      {ends : List Char}
      {single : Bool}
      {s : Stride}
      (h : Ends b ends single s) :
      Range b ends s
  | stepped
      {ends u : List Char}
      {single : Bool}
      {s : Stride}
      {k : Nat}
      (h : Ends b ends single s)
      (step : Text.Numeral u k) :
      Range b (ends ++ '/' :: u)
        ⟨s.first, if single then b.high else s.last, k, s.starred && decide (k = 1)⟩

/-- A range expression in which a hyphen stands behind a star. -/
def HyphenBehindStar (range : List Char) : Prop :=
  ∃ mark rest, isStar mark = true ∧ range = mark ++ '-' :: rest

theorem HyphenBehindStar.append
    {range : List Char}
    (h : HyphenBehindStar range)
    (more : List Char) :
    HyphenBehindStar (range ++ more) := by
  obtain ⟨mark, rest, hmark, rfl⟩ := h
  exact ⟨mark, rest ++ more, hmark, by rw [List.append_assoc, List.cons_append]⟩

/-- At most one slash, with a numeral above zero behind it. -/
def StepsOnce (range : List Char) : Prop :=
  '/' ∉ range ∨ ∃ ends u k, range = ends ++ '/' :: u ∧ '/' ∉ ends ∧ Text.Numeral u k ∧ 0 < k

/-! ### Numbers and values -/

theorem readCount_of_numeral
    {text : List Char}
    {n : Nat}
    (h : Text.Numeral text n)
    (small : n ≤ 4294967295) :
    readCount text = .ok n := by
  have hword : (n : Int) ≤ Text.wordMax := by
    unfold Text.wordMax
    omega
  unfold readCount countLimit
  rw [Text.readNumeral_of_numeral h hword]
  dsimp only
  rw [if_neg (by omega), if_neg (by omega), Int.toNat_natCast]

/-- A number above zero, or one without a minus sign, is written by a numeral. -/
theorem numeral_of_readCount
    {text : List Char}
    {n : Nat}
    (h : readCount text = .ok n)
    (positive : 0 < n ∨ '-' ∉ text) :
    Text.Numeral text n ∧ n ≤ 4294967295 := by
  unfold readCount countLimit at h
  cases hread : Text.readNumeral text with
  | error why => simp [hread] at h
  | ok m =>
      simp only [hread] at h
      split at h
      · simp at h
      · split at h
        · simp at h
        · rw [Except.ok.injEq] at h
          have unsigned : text.head? ≠ some '-' := by
            intro hminus
            obtain ⟨rest, rfl⟩ : ∃ rest, text = '-' :: rest := by
              cases text with
              | nil => simp at hminus
              | cons c rest => exact ⟨rest, by simp at hminus; rw [hminus]⟩
            have := Text.le_zero_of_readNumeral hread
            rcases positive with hpos | hnot
            · omega
            · simp at hnot
          obtain ⟨k, rfl, hnumeral⟩ := Text.numeral_of_readNumeral unsigned hread
          rw [Int.toNat_natCast] at h
          exact ⟨h ▸ hnumeral, by omega⟩

/-- A numeral is not empty and holds digits, perhaps with a sign. -/
theorem isDigit_or_plus_of_numeral
    {text : List Char}
    {n : Nat}
    (h : Text.Numeral text n) :
    text ≠ [] ∧ ∀ c ∈ text, c.isDigit = true ∨ c = '+' := by
  cases h with
  | digits some all => exact ⟨some, fun c hc => Or.inl (all c hc)⟩
  | plus some all =>
      refine ⟨by simp, ?_⟩
      intro c hc
      rcases List.mem_cons.1 hc with rfl | hc
      · exact Or.inr rfl
      · exact Or.inl (all c hc)

/-- No numeral is a name, even in part. -/
theorem lookup_of_numeral
    (named : b.WellNamed)
    {text : List Char}
    {n : Nat}
    (h : Text.Numeral text n) :
    b.lookup text = none := by
  obtain ⟨hsome, hall⟩ := isDigit_or_plus_of_numeral h
  obtain ⟨c, hc⟩ := List.exists_mem_of_ne_nil text hsome
  unfold Bounds.lookup
  rw [Option.map_eq_none_iff, List.find?_eq_none]
  intro entry mem same
  have hletter := (named.isNameLetter_of_mem mem same).2 c hc
  rcases hall c hc with hdigit | rfl
  · simp [Bounds.isNameLetter, hdigit] at hletter
  · simp [Bounds.isNameLetter] at hletter

/-- A value that is small enough is read as the number for which it stands. -/
theorem readValue_of_value
    (named : b.WellNamed)
    {text : List Char}
    {n : Nat}
    (h : Value b text n)
    (small : n ≤ 4294967295) :
    readValue b text = .ok n := by
  unfold readValue
  cases h with
  | numeral h => simp only [lookup_of_numeral named h, readCount_of_numeral h small]
  | name mem same => simp only [named.lookup_eq_some mem same]

/-- What is read without a minus sign is a value. -/
theorem value_of_readValue
    {text : List Char}
    {n : Nat}
    (unsigned : '-' ∉ text)
    (h : readValue b text = .ok n) :
    Value b text n := by
  unfold readValue Bounds.lookup at h
  cases hfind : b.names.find? fun e => Text.sameLetters e.1.toList text with
  | none =>
      simp only [hfind, Option.map_none] at h
      exact .numeral (numeral_of_readCount h (Or.inr unsigned)).1
  | some entry =>
      simp only [hfind, Option.map_some, Except.ok.injEq] at h
      have same := List.find?_some hfind
      exact h ▸ .name (List.mem_of_find?_eq_some hfind) same

/-- A character at which a field is cut, or a star. -/
def isMark (c : Char) : Bool :=
  c ∈ [',', '/', '-', '*', '?']

/-- A value is not empty and holds nothing at which a field is cut, and no star. -/
theorem Value.unmarked
    (named : b.WellNamed)
    {text : List Char}
    {n : Nat}
    (h : Value b text n) :
    text ≠ [] ∧ ∀ c ∈ text, isMark c = false := by
  have hdigits : ∀ c : Char, c.isDigit = true → isMark c = false := by
    intro c hc
    have hmark : ∀ d ∈ [',', '/', '-', '*', '?'], d.isDigit = false := by simp
    refine decide_eq_false fun hmem => ?_
    simp [hmark c hmem] at hc
  cases h with
  | numeral h =>
      obtain ⟨hsome, hall⟩ := isDigit_or_plus_of_numeral h
      refine ⟨hsome, ?_⟩
      intro c hc
      rcases hall c hc with hdigit | rfl
      · exact hdigits c hdigit
      · decide
  | name mem same =>
      obtain ⟨hsome, hletters⟩ := named.isNameLetter_of_mem mem same
      refine ⟨hsome, ?_⟩
      intro c hc
      have hletter := hletters c hc
      simp only [Bounds.isNameLetter, isMark, Bool.and_eq_true, decide_eq_true_eq,
        decide_eq_false_iff_not, List.mem_cons, not_or] at hletter ⊢
      grind

theorem mark_unmarked
    {mark : List Char}
    (h : isStar mark = true) :
    mark ≠ [] ∧ (∀ c ∈ mark, c ≠ ',' ∧ c ≠ '/' ∧ c ≠ '-') := by
  simp only [isStar, Bool.or_eq_true, beq_iff_eq] at h
  rcases h with rfl | rfl <;> simp

theorem eq_singleton_of_isStar
    {mark : List Char}
    (h : isStar mark = true) :
    ∃ c, mark = [c] ∧ isMark c = true := by
  simp only [isStar, Bool.or_eq_true, beq_iff_eq] at h
  rcases h with rfl | rfl
  · exact ⟨'*', rfl, by decide⟩
  · exact ⟨'?', rfl, by decide⟩

theorem isStar_of_unmarked
    {text : List Char}
    (h : ∀ c ∈ text, isMark c = false) :
    isStar text = false := by
  cases hstar : isStar text with
  | false => rfl
  | true =>
      obtain ⟨c, rfl, hc⟩ := eq_singleton_of_isStar hstar
      simp [h c List.mem_cons_self] at hc

theorem not_mem_of_unmarked
    {text : List Char}
    {c : Char}
    (h : ∀ d ∈ text, isMark d = false)
    (hc : isMark c = true) :
    c ∉ text := by
  intro hmem
  simp [h c hmem] at hc

/-- No range expression has a hyphen behind a star. -/
theorem HyphenBehindStar.not_range
    (named : b.WellNamed)
    {range : List Char}
    {s : Stride}
    (h : HyphenBehindStar range) :
    ¬ Range b range s := by
  -- no value begins with a star, and no step with a hyphen
  obtain ⟨mark, rest, hmark, hrange⟩ := h
  obtain ⟨c, rfl, hc⟩ := eq_singleton_of_isStar hmark
  rw [List.singleton_append] at hrange
  have hvalue : ∀ {v n more}, Value b v n → v ++ more ≠ c :: '-' :: rest := by
    intro v n more hv heq
    obtain ⟨some, unmarked⟩ := hv.unmarked named
    cases v with
    | nil => exact some rfl
    | cons d ds =>
        rw [List.cons_append, List.cons.injEq] at heq
        have := unmarked d List.mem_cons_self
        simp [heq.1, hc] at this
  have hends : ∀ {ends single s more},
      Ends b ends single s → more.head? ≠ some '-' → ends ++ more ≠ c :: '-' :: rest := by
    intro ends single s more hends hmore
    cases hends with
    | value first => exact hvalue first
    | span first last =>
        rw [List.append_assoc]
        exact hvalue first
    | star isStar =>
        obtain ⟨d, rfl, -⟩ := eq_singleton_of_isStar isStar
        intro heq
        rw [List.singleton_append, List.cons.injEq] at heq
        exact hmore (by rw [heq.2, List.head?_cons])
  rintro (plain | ⟨ends, step⟩)
  · rw [← List.append_nil range] at hrange
    exact hends plain (by simp) hrange
  · exact hends ends (by simp) hrange

/-! ### Reading what the grammar derives -/

/-- What stands before a step is not cut at slashes, and it is read, from one piece or from
two. -/
structure ReadsEnds
    (b : Bounds)
    (ends : List Char)
    (single : Bool)
    (s : Stride) :
    Prop where
  uncut : '/' ∉ ends
  read : readEnds b (Text.pieces (· == '-') ends) = .ok s
  pieces : ((Text.pieces (· == '-') ends).length == 1) = single

theorem Ends.reads
    (named : b.WellNamed)
    {ends : List Char}
    {single : Bool}
    {s : Stride}
    (h : Ends b ends single s)
    (hfirst : s.first ≤ 4294967295)
    (hlast : single = false → s.last ≤ 4294967295) :
    ReadsEnds b ends single s := by
  cases h with
  | value first =>
      have unmarked := (first.unmarked named).2
      have hpieces := Text.pieces_of_not_mem (not_mem_of_unmarked unmarked (c := '-') (by decide))
      refine ⟨not_mem_of_unmarked unmarked (by decide), ?_, by rw [hpieces]; rfl⟩
      rw [hpieces]
      simp [readEnds, isStar_of_unmarked unmarked, readValue_of_value named first hfirst,
        Bind.bind, Except.bind]
  | span first last =>
      have unmarked := (first.unmarked named).2
      have unmarked' := (last.unmarked named).2
      have hpieces := Text.pieces_of_two (c := '-') (not_mem_of_unmarked unmarked (by decide))
        (not_mem_of_unmarked unmarked' (by decide))
      refine ⟨?_, ?_, by rw [hpieces]; rfl⟩
      · simp [not_mem_of_unmarked unmarked (c := '/') (by decide),
          not_mem_of_unmarked unmarked' (c := '/') (by decide)]
      · rw [hpieces]
        simp [readEnds, isStar_of_unmarked unmarked, readValue_of_value named first hfirst,
          readValue_of_value named last (hlast rfl), Bind.bind, Except.bind]
  | star isStar =>
      have hmark : ends = ['*'] ∨ ends = ['?'] := by
        simpa [Field.isStar] using isStar
      rcases hmark with rfl | rfl <;> exact ⟨by decide, rfl, rfl⟩

/-- **Every range expression is read as the stride that it means.** -/
theorem readRange_of_range
    (named : b.WellNamed)
    (small : b.high ≤ 4294967295)
    {range : List Char}
    {s : Stride}
    (h : Range b range s)
    (within : s.Within b) :
    readRange b range = .ok s := by
  have hcheck := within.check
  have hlast : s.last ≤ 4294967295 := Nat.le_trans within.below small
  have hfirst : s.first ≤ 4294967295 := Nat.le_trans within.inOrder hlast
  cases h with
  | plain h =>
      obtain ⟨uncut, hread, -⟩ := h.reads named hfirst fun _ => hlast
      simp only [readRange, Text.pieces_of_not_mem uncut, hread, readStep, Bind.bind,
        Except.bind, hcheck]
  | @stepped ends u single s k h step =>
      obtain ⟨uncut, hread, hpieces⟩ := h.reads named hfirst fun hsingle => by
        simpa [hsingle] using hlast
      have hu : '/' ∉ u := not_mem_of_unmarked (Value.unmarked named (.numeral step)).2 (by decide)
      have hone : decide (k ≤ 1) = decide (k = 1) := by
        have hmoves : 1 ≤ k := within.moves
        rw [decide_eq_decide]
        omega
      simp only [readRange, Text.pieces_of_two uncut hu, hread, hpieces, readStep,
        readCount_of_numeral step within.small, Bind.bind, Except.bind, hone, hcheck]

/-! ### Deriving what is read -/

/-- What is read before a step without a hyphen behind a star is derived. -/
theorem ends_of_readEnds
    {ends : List Char}
    {s : Stride}
    (straight : ¬ HyphenBehindStar ends)
    (h : readEnds b (Text.pieces (· == '-') ends) = .ok s) :
    Ends b ends ((Text.pieces (· == '-') ends).length == 1) s := by
  have unsigned : ∀ p ∈ Text.pieces (· == '-') ends, '-' ∉ p :=
    fun p hp => Text.not_mem_of_mem_pieces hp
  cases hpieces : Text.pieces (· == '-') ends with
  | nil => exact absurd hpieces (Text.pieces_ne_nil _ _)
  | cons v others =>
      rw [hpieces] at h unsigned
      simp only [readEnds] at h
      cases hstar : isStar v with
      | true =>
          rw [hstar, if_pos rfl, Except.ok.injEq] at h
          subst h
          cases others with
          | nil =>
              obtain rfl := Text.eq_of_pieces_eq_one hpieces
              exact .star hstar
          | cons w more =>
              obtain ⟨rest, rfl, hrest⟩ := Text.eq_append_of_pieces hpieces
              obtain ⟨more, rfl⟩ := hrest (by simp)
              exact absurd ⟨v, more, hstar, rfl⟩ straight
      | false =>
          rw [hstar, if_neg (by decide)] at h
          obtain ⟨m, hfirst, h⟩ := ok_of_bind h
          have hv := value_of_readValue (unsigned v List.mem_cons_self) hfirst
          match others, h with
          | [], h =>
              obtain rfl := Text.eq_of_pieces_eq_one hpieces
              cases h
              exact .value hv
          | [w], h =>
              obtain rfl := Text.eq_of_pieces_eq_two hpieces
              obtain ⟨n, hlast, h⟩ := ok_of_bind h
              cases h
              exact .span hv (value_of_readValue (unsigned w (by simp)) hlast)

/-- What stands before the step is the whole field, starred, or has numbers for its ends. -/
theorem stride_of_readEnds
    {values : List (List Char)}
    {s : Stride}
    (h : readEnds b values = .ok s) :
    s = ⟨b.low, b.high, 1, true⟩ ∨ ∃ first last, s = ⟨first, last, 1, false⟩ := by
  cases values with
  | nil => simp [readEnds] at h
  | cons v others =>
      simp only [readEnds] at h
      split at h
      · cases h
        exact Or.inl rfl
      · obtain ⟨m, -, h⟩ := ok_of_bind h
        match others, h with
        | [], h =>
            cases h
            exact Or.inr ⟨m, m, rfl⟩
        | [w], h =>
            obtain ⟨n, -, h⟩ := ok_of_bind h
            cases h
            exact Or.inr ⟨m, n, rfl⟩

theorem step_of_readEnds
    {values : List (List Char)}
    {s : Stride}
    (h : readEnds b values = .ok s) :
    s.step = 1 := by
  rcases stride_of_readEnds h with rfl | ⟨first, last, rfl⟩ <;> rfl

/-- A range that is read has the parts of which its stride is made. -/
theorem parts_of_readRange
    {range : List Char}
    {s : Stride}
    (h : readRange b range = .ok s) :
    ∃ ends steps e,
      Text.pieces (· == '/') range = ends :: steps ∧
      readEnds b (Text.pieces (· == '-') ends) = .ok e ∧
      readStep b ((Text.pieces (· == '-') ends).length == 1) e steps = .ok s ∧
      checkStride b s = .ok s := by
  unfold readRange at h
  cases hparts : Text.pieces (· == '/') range with
  | nil => exact absurd hparts (Text.pieces_ne_nil _ _)
  | cons ends steps =>
      rw [hparts] at h
      obtain ⟨e, hread, h⟩ := ok_of_bind h
      obtain ⟨s', hstep, h⟩ := ok_of_bind h
      obtain ⟨rfl, -⟩ := checkStride_eq_ok.1 h
      exact ⟨ends, steps, e, rfl, hread, hstep, h⟩

/-- What is read keeps to the bounds. -/
theorem within_of_readRange
    {range : List Char}
    {s : Stride}
    (h : readRange b range = .ok s) :
    s.Within b := by
  obtain ⟨ends, steps, e, -, hread, hstep, hcheck⟩ := parts_of_readRange h
  obtain ⟨-, hlow, hhigh, horder, hmoves⟩ := checkStride_eq_ok.1 hcheck
  refine ⟨hlow, horder, hhigh, hmoves, ?_⟩
  match steps, hstep with
  | [], hstep =>
      cases hstep
      rw [step_of_readEnds hread]
      decide
  | [u], hstep =>
      obtain ⟨k, hcount, hstep⟩ := ok_of_bind hstep
      cases hstep
      exact (numeral_of_readCount hcount (Or.inl hmoves)).2

/-- What is read has at most one step, even if a hyphen stands behind a star. -/
theorem stepsOnce_of_readRange
    {range : List Char}
    {s : Stride}
    (h : readRange b range = .ok s) :
    StepsOnce range := by
  obtain ⟨ends, steps, e, hparts, -, hstep, -⟩ := parts_of_readRange h
  have hmoves : 1 ≤ s.step := (within_of_readRange h).moves
  have uncut : '/' ∉ ends :=
    Text.not_mem_of_mem_pieces (hparts ▸ List.mem_cons_self)
  match steps, hstep with
  | [], _ =>
      obtain rfl := Text.eq_of_pieces_eq_one hparts
      exact Or.inl uncut
  | [u], hstep =>
      obtain rfl := Text.eq_of_pieces_eq_two hparts
      obtain ⟨k, hcount, hstep⟩ := ok_of_bind hstep
      cases hstep
      exact Or.inr ⟨ends, u, k, rfl, uncut, (numeral_of_readCount hcount (Or.inl hmoves)).1, hmoves⟩

/-- **What is read without a hyphen behind a star is a range expression.** -/
theorem range_of_readRange
    {range : List Char}
    {s : Stride}
    (straight : ¬ HyphenBehindStar range)
    (h : readRange b range = .ok s) :
    Range b range s := by
  obtain ⟨ends, steps, e, hparts, hread, hstep, -⟩ := parts_of_readRange h
  have hmoves : 1 ≤ s.step := (within_of_readRange h).moves
  obtain ⟨rest, hrange, -⟩ := Text.eq_append_of_pieces hparts
  have hends := ends_of_readEnds (fun hback => straight (hrange ▸ hback.append rest)) hread
  match steps, hstep with
  | [], hstep =>
      obtain rfl := Text.eq_of_pieces_eq_one hparts
      cases hstep
      exact .plain hends
  | [u], hstep =>
      obtain rfl := Text.eq_of_pieces_eq_two hparts
      obtain ⟨k, hcount, hstep⟩ := ok_of_bind hstep
      cases hstep
      have hone : decide (k ≤ 1) = decide (k = 1) := by
        have : 1 ≤ k := hmoves
        rw [decide_eq_decide]
        omega
      rw [hone]
      exact .stepped hends (numeral_of_readCount hcount (Or.inl hmoves)).1

end Field
end Timetable
