import Timetable.Proofs.Executor.Replay
import Timetable.Proofs.Schedule.Nesting
import Timetable.Proofs.Schedule.Texts

/-!
# Where a question strands

A question for the next activation is handed inwards, window by window, and strands
in two places.  A pattern first reads its clock, and near an end of the calendar the
clock may show a reading that the calendar does not have.  A text is compiled when
it is asked for the first time, and compiling may end without a result.  Nothing else
strands a question: a window hands it on to a begin that lies after the given
instant, so there is a nanosecond before the begin; a cadence that leaves the
calendar answers that there is nothing; and so does the search of a pattern from any
reading that the calendar has.

Main results:

* a schedule that is offered crashes for the first activation from an instant on as it does
  for the next one after the nanosecond before (first_eq_error_iff);
* a question that strands does so at an instant whose reading lies outside the calendar, and
  that instant is the given one or the nanosecond before a begin (Strands.outside);
* a schedule answers exactly where no question strands (answers_iff_not_strands).
-/

namespace Timetable

/-- A clock has no reading exactly if its offset leads out of the calendar. -/
theorem Location.reading?_eq_none_iff
    (l : Location)
    (i : Instant) :
    l.reading? i = none ↔
      i.nanos + l.offsetAt i * nanosPerSecond < firstNano ∨
        lastNano < i.nanos + l.offsetAt i * nanosPerSecond := by
  unfold Location.reading? Zone.reading? Instant.shift? Instant.ofNanos? Location.offsetAt
  rw [Option.map_eq_none_iff, dite_eq_right_iff]
  simp only [reduceCtorEq, imp_false]
  omega

namespace Window

/-- The instant after which the schedule in a window is asked is the given one, or the nanosecond
before the begin of the window. -/
theorem startAfter_cases
    (w : Window)
    (i : Instant) :
    w.startAfter i = i ∨ ∃ b, w.opens = some b ∧ b.before? = some (w.startAfter i) := by
  unfold startAfter
  cases hopens : w.opens with
  | none => exact Or.inl rfl
  | some b =>
      cases hbefore : b.before? with
      | none => exact Or.inl (by simp [hbefore])
      | some p =>
          simp only [Option.bind_some, hbefore, Option.elim_some]
          rcases max_choice i p with hmax | hmax
          · exact Or.inl hmax
          · rw [hmax]
            exact Or.inr ⟨b, rfl, hbefore⟩

end Window

namespace CronText

variable {c : CronText}

/-- A text is read as an expression, or has a fault, or compiling it crashes. -/
theorem reads_or_fault_or_crash (c : CronText) :
    (∃ e, c.Reads e) ∨
      (∃ f c' events, c.expression = .ok (.error f, c', events)) ∨
      ∃ x, c.expression = .error x := by
  unfold expression Reads
  cases c.compiled with
  | some result =>
      cases result with
      | ok e => exact Or.inl ⟨e, Or.inl rfl⟩
      | error f => exact Or.inr (Or.inl ⟨f, _, _, rfl⟩)
  | none =>
      cases c.parser.parse c.text with
      | ok e => exact Or.inl ⟨e, Or.inr ⟨rfl, rfl⟩⟩
      | error refusal =>
          cases refusal with
          | fault f => exact Or.inr (Or.inl ⟨f, _, _, rfl⟩)
          | crash x => exact Or.inr (Or.inr ⟨x, rfl⟩)

end CronText

namespace Schedule

/-- The question for the next activation after an instant strands on the way inwards: at a clock
that has no reading, or at a text that cannot be compiled. -/
inductive Strands : Schedule → Instant → Crash → Prop
  | pattern
      {p : Pattern}
      {i : Instant}
      (unread : p.location.reading? i = none) :
      Strands (expression (.pattern p)) i .calendar
  /-- A text that is read strands where its expression does, in the window of the text. -/
  | read
      {c : CronText}
      {e : Expression}
      {i : Instant}
      {x : Crash}
      (reads : c.Reads e)
      (running : c.window.isOver i = false)
      (inside : Strands (expression e) (c.window.startAfter i) x) :
      Strands (cron c) i x
  | unreadable
      {c : CronText}
      {x : Crash}
      (i : Instant)
      (crash : c.expression = .error x) :
      Strands (cron c) i x
  | bounded
      {w : Window}
      {inner : Schedule}
      {i : Instant}
      {x : Crash}
      (running : w.isOver i = false)
      (inside : Strands inner (w.startAfter i) x) :
      Strands (bounded w inner) i x

/-- The schedule may come to ask the clock of a pattern. -/
def Consults : Schedule → Location → Prop
  | expression (.pattern p), l => p.location = l
  | cron c, l => ∃ p, c.Reads (.pattern p) ∧ p.location = l
  | bounded _ inner, l => inner.Consults l
  | _, _ => False

/-- A begin of some window of the schedule lies one nanosecond after an instant. -/
def BeginsAfter
    (s : Schedule)
    (i : Instant) :
    Prop :=
  ∃ w ∈ s.windows, ∃ b, w.opens = some b ∧ b.before? = some i

variable {s : Schedule} {i p : Instant} {x : Crash}

theorem steady_once
    (instant : Instant)
    (fired : Bool) :
    (once instant fired).Steady := by
  intro i p before
  simp only [first, next, ask, lookAfter, before]

theorem steady_cron (c : CronText) : (cron c).Steady := by
  intro i p before
  simp only [first, next, ask, lookAfter, before]

/-- **A schedule that is offered crashes for the first activation from an instant on as it does
for the next one after the nanosecond before.**  A cadence answers other things to the two
questions, but it never crashes. -/
theorem first_eq_error_iff
    (offered : s.offered = true)
    (before : i.before? = some p) :
    (s.first i).answer = .error x ↔ (s.next p).answer = .error x := by
  have hsteady : ∀ {s : Schedule}, s.Steady →
      ((s.first i).answer = .error x ↔ (s.next p).answer = .error x) := by
    intro s steady
    rw [steady i p before]
  cases s with
  | once instant fired => exact hsteady (steady_once instant fired)
  | every c => simp [first, next, ask]
  | expression e =>
      cases e with
      | pattern q => exact hsteady (steady_pattern q)
      | every c => simp [first, next, ask, askExpression, Expression.first, Expression.next]
  | interval w c => simp [first, next, ask]
  | cron c => exact hsteady (steady_cron c)
  | listed rest => simp [Schedule.offered] at offered
  | foreign asked answer => simp [Schedule.offered] at offered
  | bounded w inner => exact hsteady (steady_bounded w inner)

/-- A window that is not over crashes where the schedule in it does, after the start of the
window. -/
theorem next_bounded_eq_error_iff
    (offered : s.offered = true)
    (w : Window)
    (i : Instant) :
    ((bounded w s).next i).answer = .error x ↔
      w.isOver i = false ∧ (s.next (w.startAfter i)).answer = .error x := by
  have hkeep : ∀ a : Except Crash (Option Instant), a.map w.keep = .error x ↔ a = .error x := by
    intro a
    cases a <;> simp [Except.map]
  rw [next_bounded]
  cases hover : w.isOver i with
  | true =>
      rw [Window.route, if_pos hover]
      simp
  | false =>
      rcases Window.route_of_not_isOver hover with hroute | ⟨b, hroute, hbefore⟩
      · rw [hroute, eq_self, true_and]
        exact hkeep _
      · rw [hroute, eq_self, true_and]
        exact (hkeep _).trans (first_eq_error_iff offered hbefore)

/-- An expression crashes where its clock has no reading. -/
theorem next_expression_eq_error_iff
    (e : Expression)
    (i : Instant) :
    ((expression e).next i).answer = .error x ↔ (expression e).Strands i x := by
  cases e with
  | pattern q =>
      have hanswer : ((expression (.pattern q)).next i).answer = .error x ↔
          q.location.reading? i = none ∧ x = .calendar := by
        simp only [next, ask, askExpression, Expression.next, Pattern.next]
        cases q.location.reading? i <;> simp [eq_comm]
      rw [hanswer]
      constructor
      · rintro ⟨unread, rfl⟩
        exact .pattern unread
      · rintro ⟨unread⟩
        exact ⟨unread, rfl⟩
  | every c =>
      constructor
      · intro h
        cases h
      · intro h
        cases h

/-- A text crashes where its expression does in the window of the text, or where it is
compiled. -/
theorem next_cron_eq_error_iff
    (c : CronText)
    (i : Instant) :
    ((cron c).next i).answer = .error x ↔ (cron c).Strands i x := by
  rcases c.reads_or_fault_or_crash with ⟨e, reads⟩ | ⟨f, c', events, hfault⟩ | ⟨y, hcrash⟩
  · obtain ⟨c'', hexpression, -⟩ := CronText.expression_of_reads reads
    have hagrees : ((cron c).next i).answer =
        ((bounded c.window (expression e)).next i).answer := agrees_cron reads .next i
    rw [hagrees, next_bounded_eq_error_iff rfl, next_expression_eq_error_iff]
    constructor
    · rintro ⟨running, inside⟩
      exact .read reads running inside
    · intro h
      cases h with
      | read reads' running inside =>
          obtain ⟨c₃, hexpression', -⟩ := CronText.expression_of_reads reads'
          cases hexpression.symm.trans hexpression'
          exact ⟨running, inside⟩
      | unreadable _ crash => cases hexpression.symm.trans crash
  · constructor
    · intro h
      simp [next, ask, lookAfter, askCron, hfault] at h
    · intro h
      cases h with
      | read reads =>
          obtain ⟨c₃, hexpression, -⟩ := CronText.expression_of_reads reads
          cases hexpression.symm.trans hfault
      | unreadable _ crash => cases hfault.symm.trans crash
  · have hanswer : ((cron c).next i).answer = .error x ↔ y = x := by
      simp [next, ask, lookAfter, askCron, hcrash]
    rw [hanswer]
    constructor
    · rintro rfl
      exact .unreadable i hcrash
    · intro h
      cases h with
      | read reads =>
          obtain ⟨c₃, hexpression, -⟩ := CronText.expression_of_reads reads
          cases hexpression.symm.trans hcrash
      | unreadable _ crash => exact Except.error.inj (hcrash.symm.trans crash)

/-- **A schedule that is offered crashes exactly where the question strands.** -/
theorem next_eq_error_iff
    (offered : s.offered = true)
    (i : Instant) :
    (s.next i).answer = .error x ↔ s.Strands i x := by
  induction s generalizing i with
  | expression e => exact next_expression_eq_error_iff e i
  | cron c => exact next_cron_eq_error_iff c i
  | bounded w inner ih =>
      have hinner : inner.offered = true := offered
      rw [next_bounded_eq_error_iff hinner, ih hinner]
      constructor
      · rintro ⟨running, inside⟩
        exact .bounded running inside
      · intro h
        cases h with
        | bounded running inside => exact ⟨running, inside⟩
  | once | every | interval =>
      constructor
      · intro h
        cases h
      · intro h
        cases h
  | listed rest => simp [Schedule.offered] at offered
  | foreign asked answer => simp [Schedule.offered] at offered

/-- **A question strands where a reading lies outside the calendar**, at the given instant or at
the nanosecond before a begin, if it does not strand at a text. -/
theorem Strands.outside (h : s.Strands i x) :
    (∃ c, s.text? = some c ∧ c.expression = .error x) ∨
      x = .calendar ∧
        ∃ l j, s.Consults l ∧ (j = i ∨ s.BeginsAfter j) ∧ l.reading? j = none := by
  induction h with
  | @pattern p i unread => exact Or.inr ⟨rfl, p.location, i, rfl, Or.inl rfl, unread⟩
  | @read c e i x reads running inside =>
      right
      cases inside with
      | @pattern p _ unread =>
          refine ⟨rfl, p.location, _, ⟨p, reads, rfl⟩, ?_, unread⟩
          refine (c.window.startAfter_cases i).imp id ?_
          rintro ⟨b, hopens, hbefore⟩
          exact ⟨c.window, List.mem_cons_self, b, hopens, hbefore⟩
  | @unreadable c x i crash => exact Or.inl ⟨c, rfl, crash⟩
  | @bounded w inner i x running inside ih =>
      refine ih.imp id ?_
      rintro ⟨rfl, l, j, consults, hj, unread⟩
      refine ⟨rfl, l, j, consults, ?_, unread⟩
      rcases hj with rfl | ⟨v, hv, b, hopens, hbefore⟩
      · refine (w.startAfter_cases i).imp id ?_
        rintro ⟨b, hopens, hbefore⟩
        exact ⟨w, List.mem_cons_self, b, hopens, hbefore⟩
      · exact Or.inr ⟨v, List.mem_cons_of_mem _ hv, b, hopens, hbefore⟩

/-- **A schedule that is offered answers what comes next exactly where no question strands.**  It
crashes as the question strands, and that is at a text whose compilation crashes, or where the
reading of a clock lies outside the calendar: at the given instant, or at the nanosecond before a
begin. -/
theorem answers_iff_not_strands
    (offered : s.offered = true)
    (i : Instant) :
    ((∃ answer, (s.next i).answer = .ok answer) ↔ ∀ x, ¬ s.Strands i x) ∧
      (∀ x, (s.next i).answer = .error x ↔ s.Strands i x) ∧
      ∀ x, s.Strands i x →
        (∃ c, s.text? = some c ∧ c.expression = .error x) ∨
          x = .calendar ∧
            ∃ l j, s.Consults l ∧ (j = i ∨ s.BeginsAfter j) ∧
              (j.nanos + l.offsetAt j * nanosPerSecond < firstNano ∨
                lastNano < j.nanos + l.offsetAt j * nanosPerSecond) := by
  have hcrash : ∀ x, (s.next i).answer = .error x ↔ s.Strands i x :=
    fun x => next_eq_error_iff offered i
  refine ⟨?_, hcrash, fun x strands => ?_⟩
  · cases hanswer : (s.next i).answer with
    | ok answer =>
        simp only [Except.ok.injEq, exists_eq', true_iff]
        intro x strands
        cases hanswer.symm.trans ((hcrash x).2 strands)
    | error x =>
        simp only [reduceCtorEq, exists_false, false_iff, not_forall, not_not]
        exact ⟨x, (hcrash x).1 hanswer⟩
  · simpa only [Location.reading?_eq_none_iff] using strands.outside

/-- Nothing strands where the first hour of 1970 begins. -/
theorem answers_iff_not_strands_firstHour :
    let s := (expression (.pattern everyMinuteInTokyo)).within firstHour
    s.offered = true ∧
      (∀ x, ¬ s.Strands ⟨-1000000000, by decide⟩ x) ∧
      ∃ answer, (s.next ⟨-1000000000, by decide⟩).answer = .ok answer := by
  intro s
  have offered : s.offered = true := rfl
  have answered : ∃ answer, (s.next ⟨-1000000000, by decide⟩).answer = .ok answer := ⟨_, rfl⟩
  exact ⟨offered, (answers_iff_not_strands offered _).1.1 answered, answered⟩

/-- Every minute strands in Tokyo at the last nanosecond, when it is the next year there, and in
New York at the first one.  A text whose spans add up to more than the longest one strands
anywhere. -/
theorem ends_of_calendar_crash :
    let inNewYork : Pattern := { everyMinuteInTokyo with location := .zone Zone.newYork }
    ((expression (.pattern everyMinuteInTokyo)).next ⟨lastNano, by decide⟩).answer =
        .error .calendar ∧
      ((expression (.pattern inNewYork)).next ⟨firstNano, by decide⟩).answer =
        .error .calendar ∧
      ((cron (CronText.ofText "@every 18446744073709551615s 1000000000ns")).next .epoch).answer =
        .error .arithmetic := by
  refine ⟨rfl, rfl, ?_⟩
  decide +kernel

end Schedule
end Timetable
