import Timetable.Proofs.Field.Acceptance

/-!
# The star and the day rule

The star says that a field was written without restriction.  It is set by a range
expression that is a star, cleared by a step above one, kept when ranges are put
together, and preset in the patterns that have names.  Through all this a mask
with the star holds every number of its field: the range that sets it is the whole
field, and a union only adds numbers.

The day rule asks for both days as soon as one of the two masks has the star.  That
is the rule of unix, by which a day field without restriction says nothing, because
the mask with the star holds every day.

Main results:

* a range that is read as starred is the whole field (whole_of_readRange);
* the mask of a field that is compiled fits the field (fits_of_compile);
* the masks of a pattern that is read fit their fields, and its days are chosen by the
  rule of unix (fits_and_unix_of_parseWith).
-/

namespace Timetable

namespace Mask

/-- The mask fits a field: it holds no number outside the bounds but the star, and with the star
all numbers within. -/
structure Fits
    (m : Mask)
    (b : Bounds) :
    Prop where
  inside : ∀ n, m.has n = true → (b.low ≤ n ∧ n ≤ b.high) ∨ n = 63
  full : m.has 63 = true → ∀ n, b.low ≤ n → n ≤ b.high → m.has n = true

variable {b : Bounds}

theorem fits_empty (b : Bounds) : empty.Fits b :=
  ⟨by simp, by simp⟩

/-- The union of two masks is full if one of them is. -/
theorem Fits.union
    {m m' : Mask}
    (h : m.Fits b)
    (h' : m'.Fits b) :
    (m.union m').Fits b := by
  refine ⟨?_, ?_⟩
  · intro n hn
    rw [has_union, Bool.or_eq_true] at hn
    exact hn.elim (h.inside n) (h'.inside n)
  · intro hstar n hlow hhigh
    rw [has_union, Bool.or_eq_true] at hstar ⊢
    exact hstar.imp (fun hstar => h.full hstar n hlow hhigh) fun hstar =>
      h'.full hstar n hlow hhigh

/-- One number of a field has no star. -/
theorem fits_single
    {n : Nat}
    (low : b.low ≤ n)
    (high : n ≤ b.high)
    (small : b.high ≤ 62) :
    (single n).Fits b := by
  refine ⟨?_, ?_⟩
  · intro k hk
    simp only [has_single, Bool.and_eq_true, decide_eq_true_eq] at hk
    omega
  · intro hstar
    simp only [has_single, Bool.and_eq_true, decide_eq_true_eq] at hstar
    omega

theorem fits_unrestricted (small : b.high ≤ 62) : (Field.unrestricted b).Fits b := by
  have hhas : ∀ n, (Field.unrestricted b).has n = true ↔
      (b.low ≤ n ∧ n ≤ b.high) ∨ n = 63 := by
    intro n
    simp only [Field.unrestricted, star, starBit, has_union, has_single, has_between n
      (show b.high ≤ 63 by omega), Bool.or_eq_true, Bool.and_eq_true, decide_eq_true_eq]
    omega
  exact ⟨fun n => (hhas n).1, fun _ n hlow hhigh => (hhas n).2 (Or.inl ⟨hlow, hhigh⟩)⟩

end Mask

/-! ### Ranges and fields -/

namespace Field

variable {b : Bounds}

/-- What is starred before the step is the whole field. -/
theorem whole_of_readEnds
    {values : List (List Char)}
    {s : Stride}
    (h : readEnds b values = .ok s)
    (starred : s.starred = true) :
    s.first = b.low ∧ s.last = b.high := by
  rcases stride_of_readEnds h with rfl | ⟨first, last, rfl⟩
  · exact ⟨rfl, rfl⟩
  · cases starred

/-- **A range that is read as starred is the whole field**, number by number: a step above one
clears the star. -/
theorem whole_of_readRange
    {range : List Char}
    {s : Stride}
    (h : readRange b range = .ok s)
    (starred : s.starred = true) :
    s.first = b.low ∧ s.last = b.high ∧ s.step = 1 := by
  obtain ⟨ends, steps, e, -, hread, hstep, -⟩ := parts_of_readRange h
  have hmoves : 1 ≤ s.step := (within_of_readRange h).moves
  match steps, hstep with
  | [], hstep =>
      cases hstep
      obtain ⟨hfirst, hlast⟩ := whole_of_readEnds hread starred
      exact ⟨hfirst, hlast, step_of_readEnds hread⟩
  | [u], hstep =>
      obtain ⟨k, -, hstep⟩ := ok_of_bind hstep
      cases hstep
      simp only [Bool.and_eq_true, decide_eq_true_eq] at starred
      obtain ⟨hfirst, hlast⟩ := whole_of_readEnds hread starred.1
      refine ⟨hfirst, ?_, Nat.le_antisymm starred.2 hmoves⟩
      dsimp only
      split
      · rfl
      · exact hlast

/-- The mask of a range that is read fits the field. -/
theorem fits_of_readRange
    (small : b.high ≤ 62)
    {range : List Char}
    {s : Stride}
    (h : readRange b range = .ok s) :
    s.mask.Fits b := by
  have within := within_of_readRange h
  refine ⟨?_, ?_⟩
  · intro n hn
    rcases (Stride.has_mask_iff within small n).1 hn with ⟨k, hk, hle⟩ | ⟨hstar, -⟩
    · have hlow := within.above
      have hhigh := within.below
      exact Or.inl ⟨by omega, by omega⟩
    · exact Or.inr hstar
  · intro hstar n hlow hhigh
    have starred := (Stride.hasStar_mask within small).1 hstar
    obtain ⟨hfirst, hlast, hstep⟩ := whole_of_readRange h starred
    rw [Stride.has_mask within small (by omega)]
    exact ⟨n - b.low, by rw [hfirst, hstep]; omega, by omega⟩

theorem fits_unionAll
    {m : Mask}
    {strides : List Stride}
    (first : m.Fits b)
    (more : ∀ s ∈ strides, s.mask.Fits b) :
    (Stride.unionAll m strides).Fits b := by
  unfold Stride.unionAll
  induction strides generalizing m with
  | nil => exact first
  | cons s strides ih =>
      rw [List.forall_mem_cons] at more
      exact ih (first.union more.1) more.2

/-- **The mask of a field that is compiled fits the field**, whatever list of ranges it was
written as. -/
theorem fits_of_compile
    (small : b.high ≤ 62)
    {text : List Char}
    {m : Mask}
    (h : compile b text = .ok m) :
    m.Fits b := by
  obtain ⟨strides, hall, rfl⟩ := compileRanges_eq_ok_iff.1 h
  refine fits_unionAll (Mask.fits_empty b) fun s hs => ?_
  obtain ⟨range, -, hread⟩ := (exists_of_forall₂ hall).2 s hs
  exact fits_of_readRange small hread

end Field

/-! ### Patterns -/

namespace Pattern

/-- Every mask of the pattern fits its field. -/
def WellFormed (p : Pattern) : Prop :=
  ∀ part ∈ Part.fields, (p.mask part).Fits part.bounds

/-- The rule of unix for a day of the month and a day of the week: a day field without
restriction says nothing, and of two restricted ones one is enough. -/
def UnixDay
    (p : Pattern)
    (dayOfMonth dayOfWeek : Nat) :
    Prop :=
  match p.dayOfMonth.has 63, p.dayOfWeek.has 63 with
  | true, true => True
  | true, false => p.dayOfWeek.has dayOfWeek = true
  | false, true => p.dayOfMonth.has dayOfMonth = true
  | false, false => p.dayOfMonth.has dayOfMonth = true ∨ p.dayOfWeek.has dayOfWeek = true

theorem small_bounds (part : Part) : part.bounds.high ≤ 62 := by
  cases part <;> decide

variable {p : Pattern}

/-- A pattern that has a name has one number in each field, or no restriction. -/
theorem wellFormed_of_namedPattern
    {l : Location}
    {name : String}
    (h : Expression.namedPattern? l name = some p) :
    p.WellFormed := by
  have hnamed : p ∈ [Expression.yearly l, Expression.monthly l, Expression.weekly l,
      Expression.daily l, Expression.hourly l] := by
    unfold Expression.namedPattern? at h
    grind
  have hmask : ∀ part, p.mask part = Mask.single part.bounds.low ∨
      p.mask part = Field.unrestricted part.bounds := by
    intro part
    simp only [List.mem_cons, List.not_mem_nil, or_false] at hnamed
    rcases hnamed with rfl | rfl | rfl | rfl | rfl <;>
      cases part <;>
      first
        | exact Or.inl rfl
        | exact Or.inr rfl
  intro part _
  rcases hmask part with hone | hall
  · rw [hone]
    exact Mask.fits_single (Nat.le_refl _) (by cases part <;> decide) (small_bounds part)
  · rw [hall]
    exact Mask.fits_unrestricted (small_bounds part)

theorem wellFormed_of_parseWith
    {parser : Parser}
    {zones : Zones}
    {text : String}
    (h : parser.parseWith zones text = .ok (.pattern p)) :
    p.WellFormed := by
  rcases Parser.origin_of_parseWith h with ⟨l, name, hnamed⟩ | ⟨l, body, hread, -⟩
  · exact wellFormed_of_namedPattern hnamed
  · exact fun part hpart =>
      Field.fits_of_compile (small_bounds part) (Parser.compile_of_readPattern hread part hpart)

/-- Where the masks fit their fields, the day rule is that of unix. -/
theorem WellFormed.dayRule_iff
    (h : p.WellFormed)
    (day : Int) :
    p.dayRule (Calendar.dateOf day).day (Calendar.weekday day) = true ↔
      p.UnixDay (Calendar.dateOf day).day (Calendar.weekday day) := by
  have hmonth : p.dayOfMonth.has 63 = true →
      p.dayOfMonth.has (Calendar.dateOf day).day = true := by
    obtain ⟨hlow, hhigh⟩ := Calendar.day_dateOf day
    exact fun hstar => (h .dayOfMonth (by decide)).full hstar _ hlow hhigh
  have hweek : p.dayOfWeek.has 63 = true →
      p.dayOfWeek.has (Calendar.weekday day) = true := by
    have hlt := Calendar.weekday_lt day
    exact fun hstar => (h .dayOfWeek (by decide)).full hstar _ (Nat.zero_le _)
      (Nat.le_of_lt_succ hlt)
  unfold dayRule UnixDay Mask.hasStar Mask.starBit
  cases hdom : p.dayOfMonth.has 63 <;> cases hdow : p.dayOfWeek.has 63
  · simp
  · simp [hweek hdow]
  · simp [hmonth hdom]
  · simp [hmonth hdom, hweek hdow]

end Pattern

namespace Parser

/-- **The masks of a pattern that is read fit their fields, and its days are chosen by the rule of
unix**, whatever the parser, the zones and the text, a descriptor included: no mask holds a number
outside its field, one with the star holds every number of the field, and so a date satisfies the
day rule exactly if the day fields that are restricted allow it. -/
theorem fits_and_unix_of_parseWith
    (p : Parser)
    (zones : Zones)
    (text : String)
    (q : Pattern)
    (h : p.parseWith zones text = .ok (.pattern q)) :
    (∀ part ∈ Part.fields, (q.mask part).Fits part.bounds) ∧
      ∀ day : Int,
        q.dayRule (Calendar.dateOf day).day (Calendar.weekday day) = true ↔
          q.UnixDay (Calendar.dateOf day).day (Calendar.weekday day) := by
  have hformed := Pattern.wellFormed_of_parseWith h
  exact ⟨hformed, hformed.dayRule_iff⟩

/-- A star among other days keeps its mark, and a stepped star has none: only Mondays count. -/
theorem fits_and_unix_of_parseWith_mondays :
    ∃ q, standard.parseWith Zones.listed "0 0 */1,15 */2 mon" = .ok (.pattern q) ∧
      q.dayOfMonth.Fits Bounds.daysOfMonth ∧
      q.month.Fits Bounds.months ∧
      q.dayOfMonth.has 63 = true ∧
      q.month.has 63 = false ∧
      (q.dayRule (Calendar.dateOf 4).day (Calendar.weekday 4) = true) ∧
      ¬ q.dayRule (Calendar.dateOf 14).day (Calendar.weekday 14) = true := by
  obtain ⟨q, hq⟩ : ∃ q, standard.parseWith Zones.listed "0 0 */1,15 */2 mon" =
      .ok (.pattern q) := ⟨_, rfl⟩
  obtain ⟨hfits, hunix⟩ := fits_and_unix_of_parseWith standard Zones.listed _ q hq
  have hmasks : q.dayOfMonth.has 63 = true ∧ q.month.has 63 = false ∧
      q.dayOfWeek.has 63 = false ∧ q.dayOfWeek.has 1 = true ∧ q.dayOfWeek.has 4 = false := by
    obtain rfl := Expression.pattern.inj (Except.ok.inj hq)
    decide
  obtain ⟨hdom, hmonth, hdow, hmonday, hthursday⟩ := hmasks
  refine ⟨q, hq, hfits .dayOfMonth (by decide), hfits .month (by decide), hdom, hmonth, ?_, ?_⟩
  · rw [hunix 4, Pattern.UnixDay, hdom, hdow]
    exact hmonday
  · rw [hunix 14, Pattern.UnixDay, hdom, hdow]
    exact fun h => Bool.false_ne_true (hthursday.symm.trans h)

end Parser
end Timetable
