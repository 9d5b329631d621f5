import Timetable.Proofs.Field.Strides

/-!
# What a field denotes

A field that is written as range expressions with commas between them is
compiled, whatever the values look like: its mask holds exactly the numbers of
the strides that the expressions mean, and carries the star exactly if one of them
is a star without a step or with a step of one.  So neither the order of the
expressions nor their repetition matters.

Main results:

* the ranges of a written field are the expressions it was written from
  (ranges_listed);
* a written field denotes its numbers (compile_denotes).
-/

namespace Timetable
namespace Field

variable {b : Bounds}

/-- A range expression as it is written, with the stride that it means. -/
structure Written (b : Bounds) where
  text : List Char
  stride : Stride
  derived : Range b text stride
  within : stride.Within b

/-- The field of some range expressions: their texts with commas between them. -/
def listed (rs : List (Written b)) : List Char :=
  [','].intercalate (rs.map Written.text)

/-- No range expression is empty or holds a comma. -/
theorem Range.uncut
    (named : b.WellNamed)
    {range : List Char}
    {s : Stride}
    (h : Range b range s) :
    range ≠ [] ∧ ',' ∉ range := by
  have hends : ∀ {ends single s}, Ends b ends single s → ends ≠ [] ∧ ',' ∉ ends := by
    intro ends single s h
    cases h with
    | value first =>
        obtain ⟨hsome, unmarked⟩ := first.unmarked named
        exact ⟨hsome, not_mem_of_unmarked unmarked (by decide)⟩
    | span first last =>
        refine ⟨by simp, ?_⟩
        simp [not_mem_of_unmarked (first.unmarked named).2 (c := ',') (by decide),
          not_mem_of_unmarked (last.unmarked named).2 (c := ',') (by decide)]
    | star isStar =>
        obtain ⟨hsome, hmark⟩ := mark_unmarked isStar
        exact ⟨hsome, fun hmem => (hmark ',' hmem).1 rfl⟩
  cases h with
  | plain h => exact hends h
  | stepped h step =>
      refine ⟨by simp, ?_⟩
      simp [(hends h).2,
        not_mem_of_unmarked (Value.unmarked named (.numeral step)).2 (c := ',') (by decide)]

/-- The ranges of a written field are the expressions that it was written from. -/
theorem ranges_listed
    (named : b.WellNamed)
    (rs : List (Written b)) :
    (Text.pieces (· == ',') (listed rs)).filter (fun range => !range.isEmpty) =
      rs.map Written.text := by
  cases rs with
  | nil => rfl
  | cons r rs =>
      have hall : ∀ range ∈ (r :: rs).map Written.text, range ≠ [] ∧ ',' ∉ range := by
        intro range hrange
        obtain ⟨r, -, rfl⟩ := List.mem_map.1 hrange
        exact r.derived.uncut named
      rw [listed, Text.pieces_intercalate (fun range hrange => (hall range hrange).2) (by simp),
        List.filter_eq_self]
      intro range hrange
      simpa using (hall range hrange).1

/-- A written field is compiled to the union of the masks of its strides. -/
theorem compile_listed
    (named : b.WellNamed)
    (small : b.high ≤ 62)
    (rs : List (Written b)) :
    compile b (listed rs) = .ok (Stride.unionAll Mask.empty (rs.map Written.stride)) := by
  unfold compile
  rw [ranges_listed named, compileRanges_eq_ok_iff]
  refine ⟨rs.map Written.stride, ?_, rfl⟩
  rw [List.forall₂_map_left_iff, List.forall₂_map_right_iff, List.forall₂_same]
  intro r _
  exact readRange_of_range named (by omega) r.derived r.within

theorem has_unionAll_written
    (rs : List (Written b))
    (n : Nat) :
    (Stride.unionAll Mask.empty (rs.map Written.stride)).has n = true ↔
      ∃ r ∈ rs, r.stride.mask.has n = true := by
  rw [Stride.has_unionAll]
  simp

/-- **A written field denotes exactly the numbers of its range expressions.**  It is compiled;
its mask holds a number if some expression does, and carries the star if one of them is a star
that keeps its mark.  Expressions in another order, or written more than once, are compiled
to the same mask; and where a step is one the two ways to make a mask agree. -/
theorem compile_denotes
    (named : b.WellNamed)
    (small : b.high ≤ 62)
    (rs : List (Written b)) :
    (∃ m, compile b (listed rs) = .ok m ∧
        (∀ n, n ≤ 62 → (m.has n = true ↔ ∃ r ∈ rs, r.stride.Holds n)) ∧
        (m.has 63 = true ↔ ∃ r ∈ rs, r.stride.starred = true)) ∧
      (∀ rs' : List (Written b), (∀ r, r ∈ rs' ↔ r ∈ rs) →
        compile b (listed rs') = compile b (listed rs)) ∧
      ∀ r ∈ rs, r.stride.step = 1 →
        Mask.between r.stride.first r.stride.last =
          Mask.ofList (Mask.stepped r.stride.first r.stride.last r.stride.step) := by
  refine ⟨⟨_, compile_listed named small rs, ?_, ?_⟩, ?_, ?_⟩
  · intro n hn
    rw [has_unionAll_written]
    exact exists_congr fun r => and_congr_right fun _ => Stride.has_mask r.within small hn
  · rw [has_unionAll_written]
    exact exists_congr fun r => and_congr_right fun _ => Stride.hasStar_mask r.within small
  · intro rs' hsame
    rw [compile_listed named small, compile_listed named small, Except.ok.injEq]
    refine Mask.ext_has fun n => ?_
    rw [Bool.eq_iff_iff, has_unionAll_written, has_unionAll_written]
    exact exists_congr fun r => and_congr_left fun _ => hsame r
  · intro r _ hone
    have hlast : r.stride.last ≤ 63 := by
      have := r.within.below
      omega
    rw [hone, Mask.between_eq_ofList hlast]

/-- From January to March, in letters of either case. -/
def januaryToMarch : Written Bounds.months where
  text := ['J', 'A', 'N', '-', 'm', 'a', 'r']
  stride := ⟨1, 3, 1, false⟩
  derived := .plain (.span
    (@Value.name _ ['J', 'A', 'N'] ("jan", 1) (by decide) (by decide))
    (@Value.name _ ['m', 'a', 'r'] ("mar", 3) (by decide) (by decide)))
  within := ⟨by decide, by decide, by decide, by decide, by decide⟩

/-- Every fourth month from May on. -/
def everyFourthFromMay : Written Bounds.months where
  text := ['0', '5', '/', '4']
  stride := ⟨5, 12, 4, false⟩
  derived := .stepped
    (.value (.numeral (@Text.Numeral.digits ['0', '5'] (by decide) (by simp))))
    (@Text.Numeral.digits ['4'] (by decide) (by simp))
  within := ⟨by decide, by decide, by decide, by decide, by decide⟩

theorem compile_denotes_months :
    Bounds.months.WellNamed ∧
      Bounds.months.high ≤ 62 ∧
      ∃ m,
        compile Bounds.months "JAN-mar,05/4".toList = .ok m ∧
        m.has 9 = true ∧
        m.has 6 = false ∧
        m.has 63 = false := by
  obtain ⟨⟨m, hm, hnumbers, hstar⟩, -, -⟩ :=
    compile_denotes Bounds.wellNamed_months (by decide) [januaryToMarch, everyFourthFromMay]
  refine ⟨Bounds.wellNamed_months, by decide, m, hm, ?_, ?_, ?_⟩
  · exact (hnumbers 9 (by decide)).2 ⟨everyFourthFromMay, by simp, 1, by decide, by decide⟩
  · rw [← Bool.not_eq_true, hnumbers 6 (by decide)]
    rintro ⟨r, hr, k, hk, hle⟩
    simp only [List.mem_cons, List.not_mem_nil, or_false] at hr
    rcases hr with rfl | rfl
    · simp [januaryToMarch] at hle
    · simp only [everyFourthFromMay] at hk
      omega
  · rw [← Bool.not_eq_true, hstar]
    rintro ⟨r, hr, hstarred⟩
    simp only [List.mem_cons, List.not_mem_nil, or_false] at hr
    rcases hr with rfl | rfl <;> cases hstarred

end Field
end Timetable
