import Timetable.Proofs.Schedule.Progress

/-!
# Feeding a schedule

A schedule that advances answers only what comes after the instant it is asked
about, however often it has been asked before.  Whoever feeds it with its own
activations gets one list of them, which goes forwards; the part of the list up
to an instant is what a timer has to activate until then.

Main results:

* schedules that recur advance (advances_of_recurs), and so do those of other
  making that keep to it (advances_foreign);
* what has been fed one activation after the other is the list that feeding at
  once gives (Fed.drain).
-/

namespace Timetable
namespace Schedule

/-- A schedule becomes another one when it is asked for the next activation. -/
def Becomes (s s' : Schedule) : Prop :=
  ∃ p, s' = (s.next p).schedule

/-- However often it has been asked, the schedule answers only what comes after the instant it
is asked about. -/
def Advances (s : Schedule) : Prop :=
  ∀ s', Relation.ReflTransGen Becomes s s' →
    ∀ p i, (s'.next p).answer = .ok (some i) → p < i

theorem Advances.lt
    {s : Schedule}
    {p i : Instant}
    (h : s.Advances)
    (hi : (s.next p).answer = .ok (some i)) :
    p < i :=
  h s .refl p i hi

theorem Advances.next
    {s : Schedule}
    (h : s.Advances)
    (p : Instant) :
    (s.next p).schedule.Advances :=
  fun s' hs' => h s' (.head ⟨p, rfl⟩ hs')

/-- A schedule of other making advances if it answers only what comes later. -/
theorem advances_foreign
    {answer : List (Question × Instant) → Except Crash (Option Instant)}
    (asked : List (Question × Instant))
    (later : ∀ asked p i, answer ((.next, p) :: asked) = .ok (some i) → p < i) :
    (foreign asked answer).Advances := by
  intro s' hs'
  obtain ⟨asked', rfl⟩ : ∃ asked', s' = foreign asked' answer := by
    induction hs' with
    | refl => exact ⟨asked, rfl⟩
    | tail _ hlast ih =>
        obtain ⟨asked', rfl⟩ := ih
        obtain ⟨p, rfl⟩ := hlast
        exact ⟨_, rfl⟩
  exact fun p i hi => later asked' p i hi

/-- From an instant on a schedule has been fed with the activations of a list; it has become
another one, and is asked about some instant next. -/
inductive Fed
    (s : Schedule)
    (r : Instant) :
    List Instant → Schedule → Instant → Prop
  | nil : Fed s r [] s r
  | snoc
      {l : List Instant}
      {s' : Schedule}
      {p i : Instant}
      (h : Fed s r l s' p)
      (answer : (s'.next p).answer = .ok (some i)) :
      Fed s r (l ++ [i]) (s'.next p).schedule i

/-- What has been fed is the first part of what feeding at once gives. -/
theorem Fed.drain
    {s s' : Schedule}
    {r p : Instant}
    {l : List Instant}
    (h : Fed s r l s' p)
    (n : Nat) :
    (s.drain (l.length + n) r).answer = (s'.drain n p).answer.map (l.map some ++ ·) := by
  induction h generalizing n with
  | nil =>
      rw [List.length_nil, Nat.zero_add]
      cases (s.drain n r).answer <;> rfl
  | @snoc l s' p i _ answer ih =>
      have hlength : (l ++ [i]).length + n = l.length + (n + 1) := by
        rw [List.length_append, List.length_singleton]
        omega
      rw [hlength, ih (n + 1), drain_of_some n answer]
      cases ((s'.next p).schedule.drain n i).answer with
      | error x => rfl
      | ok more => simp [Except.map]

/-- A list consists of exactly the activations with which a schedule is fed from one instant on
up to another one. -/
structure Exactly
    (s : Schedule)
    (r upTo : Instant)
    (l : List Instant) :
    Prop where
  fed : (s.drain l.length r).answer = .ok (l.map some)
  before : ∀ i ∈ l, i ≤ upTo
  noneLeft : ∀ i, (s.drain (l.length + 1) r).answer = .ok (l.map some ++ [some i]) → upTo < i

theorem Fed.exactly
    {s s' : Schedule}
    {r p upTo : Instant}
    {l : List Instant}
    (h : Fed s r l s' p)
    (before : ∀ i ∈ l, i ≤ upTo)
    (noneLeft : ∀ i, (s'.next p).answer = .ok (some i) → upTo < i) :
    s.Exactly r upTo l := by
  refine ⟨?_, before, ?_⟩
  · have hdrain := h.drain 0
    simpa [Schedule.drain, Except.map] using hdrain
  · intro i hi
    refine noneLeft i ?_
    rw [h.drain 1] at hi
    cases hnext : (s'.next p).answer with
    | error x => simp [drain_of_error 0 hnext, Except.map] at hi
    | ok answer =>
        cases answer with
        | none => simp [drain_of_none 0 hnext, Except.map] at hi
        | some j =>
            rw [drain_of_some 0 hnext] at hi
            obtain rfl : j = i := by simpa [Schedule.drain, Except.map] using hi
            rfl

end Schedule
end Timetable
