import Timetable.Proofs.Schedule.Feeding

/-!
# Texts of schedules

A schedule has one text at most, under all its windows.  The text is compiled when
the schedule is looked at or asked for the first time, and what came of it is used
from then on.  So a look at the schedule tells what will become of every question.

Main results:

* what is kept of compiling a text is what its parser says about it, however the
  text has been made and used (honest_ofText, honest_withParser, honest_withWindow,
  honest_expression, Honest.ask, Honest.validate);
* a look at a schedule finds what is wrong with its text, and nothing else
  (Honest.answer_validate);
* a look that finds nothing wrong settles the schedule (Honest.settled_validate);
  it stays settled whatever it is asked, and no question causes an event
  (Settled.ask, Settled.becomes).
-/

namespace Timetable

namespace CronText

/-- What is kept of compiling the text is what its parser says about it. -/
def Honest (c : CronText) : Prop :=
  ∀ result, c.compiled = some result → c.parser.parse c.text = result.mapError Refusal.fault

/-- The text with a result of compiling it. -/
def keeping
    (c : CronText)
    (result : Except Fault Expression) :
    CronText :=
  { c with compiled := some result }

theorem honest_ofText
    (text : String)
    (zones : Zones) :
    (ofText text zones).Honest := by
  intro result h
  cases h

theorem honest_withParser
    (c : CronText)
    (p : Parser) :
    (c.withParser p).Honest := by
  intro result h
  cases h

theorem honest_withWindow
    {c : CronText}
    (honest : c.Honest)
    (w : Window) :
    (c.withWindow w).Honest :=
  honest

theorem honest_keeping
    {c : CronText}
    {result : Except Fault Expression}
    (h : c.parser.parse c.text = result.mapError Refusal.fault) :
    (c.keeping result).Honest := by
  intro kept hkept
  cases hkept
  exact h

/-- What the parser says about a text is what its expression is found to be. -/
theorem expression_cases
    {c : CronText}
    (honest : c.Honest) :
    (∃ e, c.parser.parse c.text = .ok e ∧
        c.expression = .ok (.ok e, c.keeping (.ok e), [])) ∨
      (∃ f events, c.parser.parse c.text = .error (.fault f) ∧
        c.expression = .ok (.error f, c.keeping (.error f), events) ∧
        ∀ event ∈ events, event = f.counted) ∨
      ∃ x, c.parser.parse c.text = .error (.crash x) ∧ c.expression = .error x := by
  cases hcompiled : c.compiled with
  | some result =>
      have hparse := honest result hcompiled
      have hsame : c = c.keeping result := by
        rw [keeping, ← hcompiled]
      have hexpression : c.expression = .ok (result, c.keeping result, []) := by
        rw [← hsame, expression, hcompiled]
      cases result with
      | ok e => exact Or.inl ⟨e, hparse, hexpression⟩
      | error f => exact Or.inr (Or.inl ⟨f, [], hparse, hexpression, by simp⟩)
  | none =>
      unfold expression
      rw [hcompiled]
      cases hparse : c.parser.parse c.text with
      | ok e => exact Or.inl ⟨e, rfl, rfl⟩
      | error refusal =>
          cases refusal with
          | fault f => exact Or.inr (Or.inl ⟨f, [f.counted], rfl, rfl, by simp⟩)
          | crash x => exact Or.inr (Or.inr ⟨x, rfl, rfl⟩)

/-- Finding the expression counts a fault at most, and only if nothing is kept. -/
theorem events_of_expression
    {c c' : CronText}
    {result : Except Fault Expression}
    {events : List Event}
    (h : c.expression = .ok (result, c', events)) :
    events = [] ∨ c.compiled = none ∧ ∃ f : Fault, events = [f.counted] := by
  unfold expression at h
  cases hcompiled : c.compiled with
  | some kept =>
      rw [hcompiled] at h
      cases h
      exact Or.inl rfl
  | none =>
      rw [hcompiled] at h
      dsimp only at h
      split at h <;> cases h
      · exact Or.inl rfl
      · exact Or.inr ⟨rfl, _, rfl⟩

theorem fault_of_mem_expression
    {c c' : CronText}
    {result : Except Fault Expression}
    {events : List Event}
    (h : c.expression = .ok (result, c', events))
    {event : Event}
    (hevent : event ∈ events) :
    ∃ f : Fault, event = f.counted := by
  rcases events_of_expression h with rfl | ⟨-, f, rfl⟩
  · cases hevent
  · exact ⟨f, List.mem_singleton.1 hevent⟩

/-- Finding the expression of a text keeps the text honest. -/
theorem honest_expression
    {c c' : CronText}
    {result : Except Fault Expression}
    {events : List Event}
    (honest : c.Honest)
    (h : c.expression = .ok (result, c', events)) :
    c'.Honest := by
  rcases expression_cases honest with ⟨e, hparse, he⟩ | ⟨f, _, hparse, hf, -⟩ | ⟨x, -, hx⟩
  · cases he.symm.trans h
    exact honest_keeping hparse
  · cases hf.symm.trans h
    exact honest_keeping hparse
  · cases hx.symm.trans h

end CronText

namespace Schedule

/-- The text under all windows of a schedule, if there is one. -/
def text? : Schedule → Option CronText
  | cron c => some c
  | bounded _ inner => inner.text?
  | _ => none

/-- What the schedule keeps of compiling its text is what the text's parser says about it. -/
def Honest (s : Schedule) : Prop :=
  ∀ c, s.text? = some c → c.Honest

/-- The text of the schedule, if there is one, is kept with the expression that its parser
reads. -/
def Settled (s : Schedule) : Prop :=
  ∀ c, s.text? = some c →
    ∃ e, c.compiled = some (.ok e) ∧ c.parser.parse c.text = .ok e

theorem honest_cron_iff {c : CronText} : (cron c).Honest ↔ c.Honest := by
  simp [Honest, text?]

theorem honest_bounded_iff
    {w : Window}
    {inner : Schedule} :
    (bounded w inner).Honest ↔ inner.Honest :=
  Iff.rfl

theorem settled_cron_iff
    {c : CronText} :
    (cron c).Settled ↔ ∃ e, c.compiled = some (.ok e) ∧ c.parser.parse c.text = .ok e := by
  simp [Settled, text?]

theorem settled_bounded_iff
    {w : Window}
    {inner : Schedule} :
    (bounded w inner).Settled ↔ inner.Settled :=
  Iff.rfl

theorem honest_of_text?
    {s : Schedule}
    (h : s.text? = none) :
    s.Honest := by
  intro c hc
  rw [h] at hc
  cases hc

theorem settled_of_text?
    {s : Schedule}
    (h : s.text? = none) :
    s.Settled := by
  intro c hc
  rw [h] at hc
  cases hc

/-- What a look at a schedule finds, told from its text. -/
def verdict (s : Schedule) : Except Crash (Option Fault) :=
  match s.text? with
  | none => .ok none
  | some c =>
      match c.parser.parse c.text with
      | .ok _ => .ok none
      | .error (.fault f) => .ok (some f)
      | .error (.crash x) => .error x

/-- **A look at a schedule finds what is wrong with its text, and nothing else.** -/
theorem Honest.answer_validate
    {s : Schedule}
    (honest : s.Honest) :
    s.validate.answer = s.verdict := by
  induction s with
  | cron c =>
      rcases CronText.expression_cases (honest_cron_iff.1 honest) with
        ⟨e, hparse, he⟩ | ⟨f, events, hparse, hf, -⟩ | ⟨x, hparse, hx⟩
      · simp [validate, verdict, text?, hparse, he]
      · simp [validate, verdict, text?, hparse, hf]
      · simp [validate, verdict, text?, hparse, hx]
  | bounded w inner ih => exact ih (honest_bounded_iff.1 honest)
  | once | every | expression | interval | listed | foreign => rfl

/-- A look at a schedule counts its fault at most. -/
theorem fault_of_mem_validate
    {s : Schedule}
    {event : Event}
    (h : event ∈ s.validate.events) :
    ∃ f : Fault, event = f.counted := by
  induction s with
  | cron c =>
      simp only [validate] at h
      split at h
      · cases h
      all_goals
        rename_i hexpression
        exact CronText.fault_of_mem_expression hexpression h
  | bounded w inner ih => exact ih h
  | once | every | expression | interval | listed | foreign => cases h

/-- No question to a schedule touches a figure but that of a fault. -/
theorem fault_of_mem_ask
    {s : Schedule}
    {q : Question}
    {i : Instant}
    {event : Event}
    (h : event ∈ (s.ask q i).events) :
    event.metric? = none ∨ ∃ f : Fault, event = f.counted := by
  induction s generalizing q i with
  | cron c =>
      simp only [ask] at h
      split at h
      · cases h
      · unfold askCron at h
        split at h
        · cases h
        · rename_i hexpression
          rcases List.mem_append.1 h with h | h
          · exact Or.inr (CronText.fault_of_mem_expression hexpression h)
          · rw [List.mem_singleton.1 h]
            exact Or.inl rfl
        · rename_i hexpression
          exact Or.inr (CronText.fault_of_mem_expression hexpression h)
  | bounded w inner ih =>
      simp only [ask] at h
      split at h
      · cases h
      · split at h
        · cases h
        · exact ih h
  | once instant fired =>
      simp only [ask] at h
      split at h <;> cases h
  | every | expression | interval | listed | foreign => cases h

theorem Honest.validate
    {s : Schedule}
    (honest : s.Honest) :
    s.validate.schedule.Honest := by
  induction s with
  | cron c =>
      have hc := honest_cron_iff.1 honest
      unfold Schedule.validate
      split
      · exact honest
      all_goals
        rename_i h
        exact honest_cron_iff.2 (CronText.honest_expression hc h)
  | bounded w inner ih => exact ih (honest_bounded_iff.1 honest)
  | once | every | expression | interval | listed | foreign => exact honest

/-- A schedule is honest whatever it is asked. -/
theorem Honest.ask
    {s : Schedule}
    (honest : s.Honest)
    (q : Question)
    (i : Instant) :
    (s.ask q i).schedule.Honest := by
  induction s generalizing q i with
  | cron c =>
      have hc := honest_cron_iff.1 honest
      simp only [Schedule.ask]
      split
      · exact honest
      · unfold askCron
        split
        · exact honest
        all_goals
          rename_i h
          exact honest_cron_iff.2 (CronText.honest_expression hc h)
  | bounded w inner ih =>
      simp only [Schedule.ask]
      split
      · exact honest
      · split
        · exact honest
        · exact ih (honest_bounded_iff.1 honest) _ _
  | once instant fired =>
      simp only [Schedule.ask]
      split <;> exact honest_of_text? rfl
  | every | expression | interval | listed | foreign => exact honest_of_text? rfl

/-- **A look that finds nothing wrong settles the schedule.** -/
theorem Honest.settled_validate
    {s : Schedule}
    (honest : s.Honest)
    (faultless : s.validate.answer = .ok none) :
    s.validate.schedule.Settled := by
  induction s with
  | cron c =>
      rcases CronText.expression_cases (honest_cron_iff.1 honest) with
        ⟨e, hparse, he⟩ | ⟨f, events, -, hf, -⟩ | ⟨x, -, hx⟩
      · simp only [Schedule.validate, he]
        exact settled_cron_iff.2 ⟨e, rfl, hparse⟩
      · simp [Schedule.validate, hf] at faultless
      · simp [Schedule.validate, hx] at faultless
  | bounded w inner ih => exact ih (honest_bounded_iff.1 honest) faultless
  | once | every | expression | interval | listed | foreign => exact settled_of_text? rfl

/-- A settled schedule stays settled, and no question causes an event. -/
theorem Settled.ask
    {s : Schedule}
    (settled : s.Settled)
    (q : Question)
    (i : Instant) :
    (s.ask q i).schedule.Settled ∧ (s.ask q i).events = [] := by
  induction s generalizing q i with
  | cron c =>
      obtain ⟨e, hcompiled, -⟩ := settled_cron_iff.1 settled
      have hexpression : c.expression = .ok (.ok e, c, []) := by
        rw [CronText.expression, hcompiled]
      simp only [Schedule.ask]
      split
      · exact ⟨settled, rfl⟩
      · rw [askCron, hexpression]
        exact ⟨settled, rfl⟩
  | bounded w inner ih =>
      simp only [Schedule.ask]
      split
      · exact ⟨settled, rfl⟩
      · split
        · exact ⟨settled, rfl⟩
        · exact ih (settled_bounded_iff.1 settled) _ _
  | once instant fired =>
      simp only [Schedule.ask]
      split <;> exact ⟨settled_of_text? rfl, rfl⟩
  | every | expression | interval | listed | foreign => exact ⟨settled_of_text? rfl, rfl⟩

/-- A settled schedule stays settled, however often it is asked for the next activation. -/
theorem Settled.becomes
    {s s' : Schedule}
    (settled : s.Settled)
    (h : Relation.ReflTransGen Becomes s s') :
    s'.Settled := by
  induction h with
  | refl => exact settled
  | tail _ hlast ih =>
      obtain ⟨p, rfl⟩ := hlast
      exact (ih.ask .next p).1

end Schedule
end Timetable
