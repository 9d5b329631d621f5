import Mathlib.Tactic
import Timetable.Zone

/-!
# The instants at which a clock shows a reading

The offsets under which a clock shows a second are found period by period.  A
period takes part exactly if the instant to which its offset leads lies in it,
so the instants found are those at which the clock shows the reading.  Periods
follow each other in time, and so do the instants.

Main results:

* an instant is among those found for a reading exactly if the clock shows the
  reading at it (mem_instantsShowing);
* resolving a reading gives the earliest such instant after a given one
  (resolveAfter_eq_some_iff, resolveAfter_eq_none_iff).
-/

namespace Timetable

/-- An instant is known by its nanoseconds. -/
theorem Instant.ext_nanos
    {i j : Instant}
    (h : i.nanos = j.nanos) :
    i = j := by
  cases i
  cases j
  simpa using h

namespace Zone

/-- A period that began at a second, or always held, has begun by another second. -/
def Begun
    (start : Option Int)
    (second : Int) : Prop :=
  start.all (· ≤ second) = true

theorem Begun.of_le
    {start : Option Int}
    {a b : Int}
    (h : Begun start a)
    (hab : a ≤ b) :
    Begun start b := by
  cases start with
  | none => rfl
  | some s =>
      simp only [Begun, Option.all_some, decide_eq_true_eq] at h ⊢
      omega

/-- The period that a change begins has begun by every later change. -/
theorem begun_of_mem_tail
    {c : OffsetChange}
    {cs : List OffsetChange}
    (hcs : (c :: cs).Pairwise fun a b => a.second < b.second) :
    ∀ d ∈ cs, Begun (some c.second) d.second := by
  intro d hd
  have hlt := (List.pairwise_cons.1 hcs).1 d hd
  simp only [Begun, Option.all_some, decide_eq_true_eq]
  omega

/-- An offset is found for a second exactly if the offset holds at the instant to which it
leads and the first period has begun by then. -/
theorem mem_offsetsShowing_iff
    {reading offset base : Int}
    {start : Option Int}
    {cs : List OffsetChange}
    (hcs : cs.Pairwise fun a b => a.second < b.second)
    (hstart : ∀ c ∈ cs, Begun start c.second) :
    offset ∈ offsetsShowing reading start base cs ↔
      Begun start (reading - offset) ∧ offsetAfter base (reading - offset) cs = offset := by
  induction cs generalizing start base with
  | nil =>
      simp only [offsetsShowing, offsetAfter]
      split
      · rename_i hbegun
        rw [List.mem_singleton]
        constructor
        · rintro rfl
          exact ⟨hbegun, rfl⟩
        · rintro ⟨-, hEq⟩
          exact hEq.symm
      · rename_i hbegun
        constructor
        · intro h
          simp at h
        · rintro ⟨hb, rfl⟩
          exact absurd hb hbegun
  | cons c cs ih =>
      have htail :
          offset ∈ offsetsShowing reading (some c.second) c.offset cs ↔
            Begun (some c.second) (reading - offset) ∧
              offsetAfter c.offset (reading - offset) cs = offset :=
        ih (List.pairwise_cons.1 hcs).2 (begun_of_mem_tail hcs)
      have hc : Begun start c.second := hstart c (by simp)
      simp only [offsetsShowing, List.mem_append, htail]
      have hbegun :
          Begun (some c.second) (reading - offset) ↔ c.second ≤ reading - offset := by
        simp [Begun]
      rw [hbegun]
      by_cases hbefore : reading - offset < c.second
      · -- Only the first period can show the reading.
        have hnot : ¬ c.second ≤ reading - offset := by omega
        simp only [hnot, false_and, or_false, offsetAfter, if_pos hbefore]
        constructor
        · intro h
          split at h
          · rename_i hfirst
            obtain rfl := List.mem_singleton.1 h
            rw [Bool.and_eq_true] at hfirst
            exact ⟨hfirst.1, rfl⟩
          · simp at h
        · rintro ⟨hb, rfl⟩
          rw [if_pos (by rw [Bool.and_eq_true]; exact ⟨hb, by simpa using hbefore⟩)]
          simp
      · have hle : c.second ≤ reading - offset := by omega
        simp only [hle, true_and, offsetAfter, if_neg hbefore]
        constructor
        · rintro (h | h)
          · split at h
            · rename_i hfirst
              obtain rfl := List.mem_singleton.1 h
              rw [Bool.and_eq_true, decide_eq_true_eq] at hfirst
              exact absurd hfirst.2 hbefore
            · simp at h
          · exact ⟨hc.of_le hle, h⟩
        · rintro ⟨-, h⟩
          exact Or.inr h

/-- The offsets are found in the order of the instants to which they lead. -/
theorem pairwise_offsetsShowing
    {reading base : Int}
    {start : Option Int}
    {cs : List OffsetChange}
    (hcs : cs.Pairwise fun a b => a.second < b.second)
    (hstart : ∀ c ∈ cs, Begun start c.second) :
    (offsetsShowing reading start base cs).Pairwise fun a b => b < a := by
  induction cs generalizing start base with
  | nil =>
      simp only [offsetsShowing]
      split <;> simp
  | cons c cs ih =>
      have hlater := begun_of_mem_tail hcs
      have htail :
          (offsetsShowing reading (some c.second) c.offset cs).Pairwise fun a b => b < a :=
        ih (List.pairwise_cons.1 hcs).2 hlater
      simp only [offsetsShowing]
      rw [List.pairwise_append]
      refine ⟨by split <;> simp, htail, ?_⟩
      intro a ha b hb
      have hbegun := ((mem_offsetsShowing_iff (List.pairwise_cons.1 hcs).2 hlater).1 hb).1
      simp only [Begun, Option.all_some, decide_eq_true_eq] at hbegun
      split at ha
      · rename_i hfirst
        obtain rfl := List.mem_singleton.1 ha
        rw [Bool.and_eq_true, decide_eq_true_eq] at hfirst
        omega
      · simp at ha

/-- The second that a clock of the zone shows at an instant. -/
def shownSecond (z : Zone) (i : Instant) : Int :=
  i.second + z.offsetAt i

/-- A clock shows a reading exactly if the offset at the instant leads to it. -/
theorem reading?_eq_some_iff
    {z : Zone}
    {i : Instant}
    {r : Reading} :
    z.reading? i = some r ↔ r.face.nanos = i.nanos + z.offsetAt i * nanosPerSecond := by
  unfold reading?
  rw [Option.map_eq_some_iff]
  constructor
  · rintro ⟨face, hface, rfl⟩
    exact Instant.shift?_eq_some.1 hface
  · intro h
    exact ⟨r.face, Instant.shift?_eq_some.2 h, rfl⟩

/-- The second of a reading is the second that the clock shows. -/
theorem second_of_reading?
    {z : Zone}
    {i : Instant}
    {r : Reading}
    (h : z.reading? i = some r) :
    r.second = z.shownSecond i := by
  have hnanos := reading?_eq_some_iff.1 h
  simp only [Reading.second, Instant.second, shownSecond, hnanos]
  exact Int.add_mul_ediv_right _ _ (by decide)

/-- **An instant is found for a reading exactly if the clock shows the reading at it.** -/
theorem mem_instantsShowing
    {z : Zone}
    (hz : z.Ordered)
    {r : Reading}
    {i : Instant} :
    i ∈ z.instantsShowing r ↔ z.reading? i = some r := by
  have hsecond : ∀ offset : Int,
      i.nanos = r.face.nanos + -(offset * nanosPerSecond) → r.second - offset = i.second := by
    intro offset h
    have hsplit : i.nanos = r.face.nanos + -offset * nanosPerSecond := by rw [h, Int.neg_mul]
    simp only [Reading.second, Instant.second, hsplit]
    rw [Int.add_mul_ediv_right _ _ (by decide)]
    omega
  simp only [instantsShowing, List.mem_filterMap, Instant.shift?_eq_some]
  rw [reading?_eq_some_iff]
  constructor
  · rintro ⟨offset, hmem, hnanos⟩
    have hholds := ((mem_offsetsShowing_iff hz (by intro c _; rfl)).1 hmem).2
    rw [hsecond offset hnanos] at hholds
    have hoffset : z.offsetAt i = offset := hholds
    rw [hoffset]
    omega
  · intro hnanos
    have hback : i.nanos = r.face.nanos + -(z.offsetAt i * nanosPerSecond) := by omega
    refine ⟨z.offsetAt i, ?_, hback⟩
    rw [mem_offsetsShowing_iff hz (by intro c _; rfl), hsecond _ hback]
    exact ⟨rfl, rfl⟩

/-- The instants found for a reading follow each other in time. -/
theorem pairwise_instantsShowing
    {z : Zone}
    (hz : z.Ordered)
    (r : Reading) :
    (z.instantsShowing r).Pairwise (· < ·) := by
  unfold instantsShowing
  rw [List.pairwise_filterMap]
  apply (pairwise_offsetsShowing hz (by intro c _; rfl)).imp
  intro a b hba i hi j hj
  rw [Instant.shift?_eq_some] at hi hj
  have hmul : b * (nanosPerSecond : Int) < a * nanosPerSecond :=
    Int.mul_lt_mul_of_pos_right hba (by decide)
  rw [Instant.lt_iff]
  omega

theorem resolveAfter_eq_none_iff
    {z : Zone}
    (hz : z.Ordered)
    {r : Reading}
    {after : Instant} :
    z.resolveAfter r after = none ↔ ∀ j, z.reading? j = some r → ¬ after < j := by
  unfold resolveAfter
  rw [List.find?_eq_none]
  simp only [mem_instantsShowing hz, decide_eq_true_eq]

/-- The instant that resolves a reading shows it, after the given one and before all others. -/
theorem least_of_resolveAfter
    {z : Zone}
    (hz : z.Ordered)
    {r : Reading}
    {after i : Instant}
    (h : z.resolveAfter r after = some i) :
    z.reading? i = some r ∧ after < i ∧ ∀ j, z.reading? j = some r → after < j → i ≤ j := by
  unfold resolveAfter at h
  obtain ⟨hlt, earlier, later, hsplit, hearlier⟩ := List.find?_eq_some_iff_append.1 h
  have hordered := pairwise_instantsShowing hz r
  rw [hsplit, List.pairwise_append] at hordered
  refine ⟨?_, by simpa using hlt, ?_⟩
  · rw [← mem_instantsShowing hz, hsplit]
    simp
  · intro j hj hafter
    rw [← mem_instantsShowing hz, hsplit, List.mem_append, List.mem_cons] at hj
    rcases hj with hj | rfl | hj
    · have := hearlier j hj
      simp [hafter] at this
    · exact Int.le_refl _
    · exact Int.le_of_lt ((List.pairwise_cons.1 hordered.2.1).1 j hj)

/-- **Resolving a reading gives the earliest instant after a given one at which the clock
shows it.** -/
theorem resolveAfter_eq_some_iff
    {z : Zone}
    (hz : z.Ordered)
    {r : Reading}
    {after i : Instant} :
    z.resolveAfter r after = some i ↔
      z.reading? i = some r ∧ after < i ∧
        ∀ j, z.reading? j = some r → after < j → i ≤ j := by
  constructor
  · exact least_of_resolveAfter hz
  · rintro ⟨hshows, hafter, hleast⟩
    cases hfound : z.resolveAfter r after with
    | none => exact absurd hafter ((resolveAfter_eq_none_iff hz).1 hfound i hshows)
    | some j =>
        obtain ⟨hjshows, hjafter, hjleast⟩ := least_of_resolveAfter hz hfound
        have hij : i.nanos = j.nanos :=
          Int.le_antisymm (hleast j hjshows hjafter) (hjleast i hshows hafter)
        rw [Instant.ext_nanos hij]

end Zone
end Timetable
