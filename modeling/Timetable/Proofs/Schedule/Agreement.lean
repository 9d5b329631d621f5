import Mathlib.Order.Defs.LinearOrder
import Timetable.Proofs.Schedule.Progress

/-!
# Schedules that agree

Two schedules agree if they give the same answer to every question.  Putting a
window around both keeps that, since the answer of a bounded schedule depends only
on the answers of what it bounds.  A text answers as the expression it is read as,
in the window of the text.

Instants are in order, and the nanosecond before an instant is next to it; so what
a window does to an answer is a matter of order.

Main results:

* the answer of a bounded schedule (answer_bounded);
* schedules that agree agree in every window (Agrees.bounded);
* a text agrees with its expression (agrees_cron).
-/

namespace Timetable

/-! ### The order of instants -/

instance : LinearOrder Instant where
  le_refl i := Int.le_refl i.nanos
  le_trans _ _ _ := Int.le_trans
  lt_iff_le_not_ge _ _ := Int.lt_iff_le_and_not_ge
  le_antisymm _ _ hij hji := Instant.ext_nanos (Int.le_antisymm hij hji)
  le_total i j := Int.le_total i.nanos j.nanos
  toDecidableLE := inferInstance

namespace Instant

variable {i j p : Instant}

/-- An instant after another one has a nanosecond before it. -/
theorem exists_before (h : i < j) : ∃ p, j.before? = some p := by
  have hi := i.inCalendar
  have hj := j.inCalendar
  rw [lt_iff] at h
  exact ⟨⟨j.nanos + -1, by omega⟩, shift?_eq_some.2 rfl⟩

/-- After the nanosecond before an instant comes what is not before the instant. -/
theorem lt_iff_of_before (before : i.before? = some p) : p < j ↔ i ≤ j := by
  have hp := shift?_eq_some.1 before
  rw [lt_iff, le_iff]
  omega

end Instant

/-! ### What a window keeps -/

namespace Window

variable {w : Window} {i j : Instant}

theorem contains_iff :
    w.contains i = true ↔
      (∀ b, w.opens = some b → b ≤ i) ∧ ∀ e, w.closes = some e → i ≤ e := by
  simp [contains, Option.all_eq_true]

theorem isOver_iff : w.isOver i = true ↔ ∃ e, w.closes = some e ∧ e < i := by
  simp [isOver, Option.any_eq_true]

/-- Up to an instant that it holds a window is not over. -/
theorem isOver_of_contains
    (h : w.contains j = true)
    (hij : i ≤ j) :
    w.isOver i = false := by
  rw [← Bool.not_eq_true, isOver_iff]
  rintro ⟨e, hcloses, he⟩
  exact absurd ((contains_iff.1 h).2 e hcloses) (not_le_of_gt (lt_of_lt_of_le he hij))

/-- A window that has opened and does not hold an instant is over there. -/
theorem isOver_of_not_contains
    (begun : ∀ b, w.opens = some b → b ≤ i)
    (h : w.contains i = false) :
    w.isOver i = true := by
  rw [isOver_iff]
  by_contra hopen
  rw [← Bool.not_eq_true, contains_iff] at h
  exact h ⟨begun, fun e hcloses => le_of_not_gt fun he => hopen ⟨e, hcloses, he⟩⟩

/-- Behind the end of a window nothing is kept. -/
theorem keep_of_isOver
    (h : w.isOver i = true)
    (hij : i ≤ j) :
    w.keep (some j) = none := by
  rw [keep, Option.filter_some, if_neg]
  intro hin
  rw [isOver_of_contains hin hij] at h
  cases h

end Window

/-! ### Agreement -/

namespace Schedule

/-- The schedules give the same answer to every question. -/
def Agrees (s s' : Schedule) : Prop :=
  ∀ q i, (s.ask q i).answer = (s'.ask q i).answer

/-- The answer of a schedule in a window. -/
theorem answer_bounded
    (w : Window)
    (s : Schedule)
    (q : Question)
    (i : Instant) :
    ((bounded w s).ask q i).answer =
      lookAfter q i >>= askWithin w fun q i => (s.ask q i).answer := by
  simp only [ask, askWithin, Bind.bind, Except.bind]
  cases lookAfter q i with
  | error x => rfl
  | ok after =>
      dsimp only
      split <;> rfl

/-- Schedules that agree agree in every window. -/
theorem Agrees.bounded
    {s s' : Schedule}
    (h : s.Agrees s')
    (w : Window) :
    (bounded w s).Agrees (bounded w s') := by
  have hask : (fun q i => (s.ask q i).answer) = fun q i => (s'.ask q i).answer := by
    funext q i
    exact h q i
  intro q i
  rw [answer_bounded, answer_bounded, hask]

theorem agrees_expression_every (c : Cadence) : (expression (.every c)).Agrees (every c) := by
  intro q i
  cases q <;> rfl

end Schedule

/-! ### Texts -/

namespace CronText

/-- The text is read as an expression, or has been. -/
def Reads
    (t : CronText)
    (e : Expression) :
    Prop :=
  t.compiled = some (.ok e) ∨ t.compiled = none ∧ t.parser.parse t.text = .ok e

theorem expression_of_reads
    {t : CronText}
    {e : Expression}
    (h : t.Reads e) :
    ∃ t', t.expression = .ok (.ok e, t', []) ∧ t'.window = t.window := by
  unfold expression
  rcases h with hkept | ⟨hnone, hparse⟩
  · rw [hkept]
    exact ⟨t, rfl, rfl⟩
  · rw [hnone]
    dsimp only
    rw [hparse]
    exact ⟨_, rfl, rfl⟩

end CronText

/-- A text agrees with the expression that it is read as, in its window. -/
theorem Schedule.agrees_cron
    {t : CronText}
    {e : Expression}
    (h : t.Reads e) :
    (cron t).Agrees (bounded t.window (expression e)) := by
  intro q i
  obtain ⟨t', hexpression, hwindow⟩ := CronText.expression_of_reads h
  rw [answer_bounded]
  simp only [ask]
  cases lookAfter q i with
  | error x => rfl
  | ok after =>
      simp only [askCron, hexpression, hwindow]
      rfl

end Timetable
