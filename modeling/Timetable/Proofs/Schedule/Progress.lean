import Mathlib.Data.List.ReduceOption
import Timetable.Proofs.Pattern.Activation
import Timetable.Schedule

/-!
# Progress of schedules

A schedule that recurs never stands still: what it answers comes after the start
and lies in all windows on the way to its leaf, and from there on it goes at
least a second at a time.  The activations of a pattern are whole seconds; so
between two of them lies a second, whatever the clock does.  A window that ends
therefore lets through so many activations as seconds fit into it.

Main results:

* an answer is admitted by the question, and the schedule is in step with it
  (inStep_of_ask);
* a schedule that is in step goes on by a second at least (nanos_le_of_next);
* a schedule with an end comes to its end when it is fed with its activations
  (recurring_progress).
-/

namespace Timetable

/-- What may be answered to a question. -/
def Question.Admits
    (q : Question)
    (i r : Instant) : Prop :=
  match q with
  | .next => i < r
  | .first => i ≤ r

namespace Window

/-- From inside a window the way leads to the next activation of the restricted schedule. -/
theorem route_of_contains
    {w : Window}
    {i : Instant}
    (h : w.contains i = true) :
    w.route i = some (.next, i) := by
  rw [contains, Bool.and_eq_true] at h
  obtain ⟨hopens, hcloses⟩ := h
  have hover : w.isOver i = false := by
    unfold isOver
    cases hc : w.closes with
    | none => rfl
    | some e =>
        simp only [hc, Option.all_some, decide_eq_true_eq, Instant.le_iff] at hcloses
        simpa [Instant.lt_iff] using hcloses
  unfold route
  rw [hover, if_neg (by simp)]
  cases ho : w.opens with
  | none => rfl
  | some b =>
      simp only [ho, Option.all_some, decide_eq_true_eq, Instant.le_iff] at hopens
      have hnot : ¬ i < b := by
        simpa [Instant.lt_iff] using hopens
      simp only [if_neg hnot]

/-- What is admitted on the way through a window comes after the start. -/
theorem lt_of_route
    {w : Window}
    {after i r : Instant}
    {q : Question}
    (h : w.route after = some (q, i))
    (hr : q.Admits i r) :
    after < r := by
  unfold route at h
  split at h
  · simp at h
  · split at h
    · rename_i b _
      split at h
      · rename_i hbegin
        cases h
        exact Int.lt_of_lt_of_le hbegin hr
      · cases h
        exact hr
    · cases h
      exact hr

theorem keep_eq_some_iff
    {w : Window}
    {answer : Option Instant}
    {r : Instant} :
    w.keep answer = some r ↔ answer = some r ∧ w.contains r = true :=
  Option.filter_eq_some_iff

end Window

namespace Cadence

/-- A cadence goes on by a second at least. -/
theorem nanos_le_of_next
    {c : Cadence}
    {i r : Instant}
    (h : c.next i = some r) :
    i.nanos + nanosPerSecond ≤ r.nanos := by
  have hnanos : r.nanos = i.nanos + c.interval.nanos := Instant.shift?_eq_some.1 h
  have hsecond : nanosPerSecond ≤ c.interval.nanos := c.atLeast
  omega

end Cadence

namespace Schedule

/-- The schedule ends in a leaf that answers again and again. -/
def recurs : Schedule → Bool
  | once _ _ => false
  | listed _ => false
  | foreign _ _ => false
  | bounded _ inner => inner.recurs
  | _ => true

/-- The windows on the way to the leaf. -/
def windows : Schedule → List Window
  | bounded w inner => w :: inner.windows
  | interval w _ => [w]
  | cron c => [c.window]
  | _ => []

/-- The leaf is a pattern, or a text that may be compiled to one. -/
def mayBePattern : Schedule → Bool
  | expression (.pattern _) => true
  | cron c =>
      match c.compiled with
      | some (.ok (.every _)) => false
      | _ => true
  | bounded _ inner => inner.mayBePattern
  | _ => false

/-- A recurring schedule is in step with an instant that lies in all of its windows, and
that is a whole second if the leaf may be a pattern. -/
structure InStep
    (s : Schedule)
    (i : Instant) : Prop where
  recurs : s.recurs = true
  inside : ∀ w ∈ s.windows, w.contains i = true
  whole : s.mayBePattern = true → i.subNanos = 0

theorem lookAfter_next (i : Instant) : lookAfter .next i = .ok i :=
  rfl

/-- What comes after the instant after which an answer is looked for is admitted. -/
theorem admits_of_lookAfter
    {q : Question}
    {i after r : Instant}
    (h : lookAfter q i = .ok after)
    (hr : after < r) :
    q.Admits i r := by
  cases q with
  | next =>
      cases h
      exact hr
  | first =>
      cases hbefore : i.before? with
      | none => simp [lookAfter, hbefore] at h
      | some b =>
          simp only [lookAfter, hbefore, Except.ok.injEq] at h
          subst h
          have hnanos : b.nanos = i.nanos + -1 := Instant.shift?_eq_some.1 hbefore
          simp only [Question.Admits, Instant.le_iff, Instant.lt_iff] at hr ⊢
          omega

/-- The answer of a cadence is admitted. -/
theorem admits_of_askCadence
    {c : Cadence}
    {q : Question}
    {i r : Instant}
    (h : askCadence c q i = some r) :
    q.Admits i r := by
  cases q with
  | next =>
      have hnanos := Cadence.nanos_le_of_next h
      simp only [Question.Admits, Instant.lt_iff, nanosPerSecond] at hnanos ⊢
      omega
  | first =>
      cases h
      exact Int.le_refl _

/-- The answer of an expression is admitted, and a whole second if it is a pattern's. -/
theorem admits_of_askExpression
    {e : Expression}
    {q : Question}
    {i r : Instant}
    (h : askExpression e q i = .ok (some r)) :
    q.Admits i r ∧ ((∃ p, e = .pattern p) → r.subNanos = 0) := by
  cases e with
  | pattern p =>
      have hafter : ∃ after, lookAfter q i = .ok after ∧ p.next after = .ok (some r) := by
        cases q with
        | next => exact ⟨i, rfl, h⟩
        | first =>
            simp only [askExpression, Expression.first] at h
            cases hbefore : i.before? with
            | none => simp [hbefore] at h
            | some b =>
                rw [hbefore] at h
                exact ⟨b, by simp [lookAfter, hbefore], h⟩
      obtain ⟨after, hlook, hnext⟩ := hafter
      exact ⟨admits_of_lookAfter hlook (Pattern.lt_of_next hnext),
        fun _ => Pattern.subNanos_of_next hnext⟩
  | every c =>
      refine ⟨?_, by simp⟩
      have hcadence : askCadence c q i = some r := by
        cases q with
        | next => simpa [askExpression, Expression.next, askCadence] using h
        | first => simpa [askExpression, Expression.first, askCadence] using h
      exact admits_of_askCadence hcadence

/-- The answer of a cadence with a window is admitted and lies in the window. -/
theorem admits_of_askInterval
    {w : Window}
    {c : Cadence}
    {q : Question}
    {i r : Instant}
    (h : askInterval w c q i = some r) :
    q.Admits i r ∧ w.contains r = true := by
  cases q with
  | next =>
      simp only [askInterval] at h
      split at h
      · simp at h
      · rename_i q' i' hroute
        obtain ⟨hanswer, hinside⟩ := Window.keep_eq_some_iff.1 h
        exact ⟨Window.lt_of_route hroute (admits_of_askCadence hanswer), hinside⟩
  | first =>
      simp only [askInterval] at h
      obtain ⟨hstart, hinside⟩ := Window.keep_eq_some_iff.1 h
      refine ⟨?_, hinside⟩
      rw [Option.some.injEq] at hstart
      subst hstart
      simp only [Question.Admits, Instant.le_iff]
      split
      · split
        · rename_i hbegin
          exact Int.le_of_lt hbegin
        · exact Int.le_refl _
      · exact Int.le_refl _

/-- The answer of an expression in a window. -/
theorem admits_of_askWithin
    {w : Window}
    {e : Expression}
    {after r : Instant}
    (h : askWithin w (askExpression e) after = .ok (some r)) :
    after < r ∧ w.contains r = true ∧ ((∃ p, e = .pattern p) → r.subNanos = 0) := by
  unfold askWithin at h
  split at h
  · simp at h
  · rename_i q i hroute
    cases hask : askExpression e q i with
    | error x => simp [hask, Except.map] at h
    | ok answer =>
        simp only [hask, Except.map, Except.ok.injEq] at h
        obtain ⟨hanswer, hinside⟩ := Window.keep_eq_some_iff.1 h
        rw [hanswer] at hask
        obtain ⟨hadmits, hwhole⟩ := admits_of_askExpression hask
        exact ⟨Window.lt_of_route hroute hadmits, hinside, hwhole⟩

/-- A text that answers has been compiled to an expression, which is kept. -/
theorem askCron_spec
    {c : CronText}
    {after r : Instant}
    (h : (askCron c after).answer = .ok (some r)) :
    ∃ e c', (askCron c after).schedule = .cron c' ∧ c'.window = c.window ∧
      c'.compiled = some (.ok e) ∧ (c.compiled = none ∨ c.compiled = some (.ok e)) ∧
      askWithin c.window (askExpression e) after = .ok (some r) := by
  unfold askCron CronText.expression at h ⊢
  cases hcompiled : c.compiled with
  | some result =>
      cases result with
      | error f => simp [hcompiled] at h
      | ok e =>
          simp only [hcompiled] at h ⊢
          exact ⟨e, c, rfl, rfl, hcompiled, Or.inr rfl, h⟩
  | none =>
      cases hparse : c.parser.parse c.text with
      | error x =>
          cases x <;> simp [hcompiled, hparse] at h
      | ok e =>
          simp only [hcompiled, hparse] at h ⊢
          exact ⟨e, _, rfl, rfl, rfl, Or.inl trivial, h⟩

/-- **An answer of a recurring schedule is admitted, and the schedule is in step with it.** -/
theorem inStep_of_ask
    {s : Schedule}
    {q : Question}
    {i r : Instant}
    (recurs : s.recurs = true)
    (h : (s.ask q i).answer = .ok (some r)) :
    q.Admits i r ∧ (s.ask q i).schedule.InStep r ∧ (s.ask q i).schedule.windows = s.windows := by
  induction s generalizing q i with
  | once instant fired => simp [Schedule.recurs] at recurs
  | listed rest => simp [Schedule.recurs] at recurs
  | foreign asked answer => simp [Schedule.recurs] at recurs
  | every c =>
      have hanswer : askCadence c q i = some r := by simpa [ask] using h
      exact ⟨admits_of_askCadence hanswer, ⟨rfl, by simp [ask, windows], by
        simp [ask, mayBePattern]⟩, rfl⟩
  | expression e =>
      obtain ⟨hadmits, hwhole⟩ := admits_of_askExpression (e := e) h
      refine ⟨hadmits, ⟨rfl, by simp [ask, windows], ?_⟩, rfl⟩
      intro hpattern
      cases e with
      | pattern p => exact hwhole ⟨p, rfl⟩
      | every c => simp [ask, mayBePattern] at hpattern
  | interval w c =>
      have hanswer : askInterval w c q i = some r := by simpa [ask] using h
      obtain ⟨hadmits, hinside⟩ := admits_of_askInterval hanswer
      exact ⟨hadmits, ⟨rfl, by simpa [ask, windows] using hinside, by
        simp [ask, mayBePattern]⟩, rfl⟩
  | cron c =>
      cases hlook : lookAfter q i with
      | error x => simp [ask, hlook] at h
      | ok after =>
          simp only [ask, hlook] at h ⊢
          obtain ⟨e, c', hschedule, hwindow, hcompiled, -, hwithin⟩ := askCron_spec h
          obtain ⟨hafter, hinside, hwhole⟩ := admits_of_askWithin hwithin
          refine ⟨admits_of_lookAfter hlook hafter, ?_, ?_⟩
          · rw [hschedule]
            refine ⟨rfl, by simpa [windows, hwindow] using hinside, ?_⟩
            intro hpattern
            cases e with
            | pattern p => exact hwhole ⟨p, rfl⟩
            | every c => simp [mayBePattern, hcompiled] at hpattern
          · rw [hschedule, windows, hwindow, windows]
  | bounded w inner ih =>
      cases hlook : lookAfter q i with
      | error x => simp [ask, hlook] at h
      | ok after =>
          cases hroute : w.route after with
          | none => simp [ask, hlook, hroute] at h
          | some route =>
              obtain ⟨q', i'⟩ := route
              simp only [ask, hlook, hroute] at h ⊢
              cases hasked : (inner.ask q' i').answer with
              | error x => simp [hasked, Except.map] at h
              | ok answer =>
                  simp only [hasked, Except.map, Except.ok.injEq] at h
                  obtain ⟨rfl, hinside⟩ := Window.keep_eq_some_iff.1 h
                  obtain ⟨hadmits, hstep, hwindows⟩ := ih recurs hasked
                  refine ⟨admits_of_lookAfter hlook (Window.lt_of_route hroute hadmits),
                    ⟨hstep.recurs, ?_, hstep.whole⟩, ?_⟩
                  · intro v hv
                    rcases List.mem_cons.1 hv with rfl | hv
                    · exact hinside
                    · exact hstep.inside v hv
                  · rw [windows, hwindows, windows]

/-- Two whole seconds of which one comes first have a second between them. -/
theorem nanos_le_of_whole
    {i r : Instant}
    (hi : i.subNanos = 0)
    (hr : r.subNanos = 0)
    (h : i < r) :
    i.nanos + nanosPerSecond ≤ r.nanos := by
  have hi' := Instant.nanos_of_subNanos_eq_zero hi
  have hr' := Instant.nanos_of_subNanos_eq_zero hr
  simp only [Instant.lt_iff, nanosPerSecond] at *
  omega

/-- An expression goes on by a second at least from where it is in step. -/
theorem nanos_le_of_askExpression
    {e : Expression}
    {i r : Instant}
    (whole : (∃ p, e = .pattern p) → i.subNanos = 0)
    (h : askExpression e .next i = .ok (some r)) :
    i.nanos + nanosPerSecond ≤ r.nanos := by
  obtain ⟨hadmits, hwhole⟩ := admits_of_askExpression h
  cases e with
  | pattern p => exact nanos_le_of_whole (whole ⟨p, rfl⟩) (hwhole ⟨p, rfl⟩) hadmits
  | every c =>
      have hnext : c.next i = some r := by
        simpa [askExpression, Expression.next] using h
      exact Cadence.nanos_le_of_next hnext

/-- **A schedule that is in step goes on by a second at least.** -/
theorem nanos_le_of_next
    {s : Schedule}
    {i r : Instant}
    (hstep : s.InStep i)
    (h : (s.next i).answer = .ok (some r)) :
    i.nanos + nanosPerSecond ≤ r.nanos := by
  unfold next at h
  obtain ⟨recurs, inside, whole⟩ := hstep
  induction s with
  | once instant fired => simp [Schedule.recurs] at recurs
  | listed rest => simp [Schedule.recurs] at recurs
  | foreign asked answer => simp [Schedule.recurs] at recurs
  | every c =>
      have hanswer : c.next i = some r := by simpa [ask, askCadence] using h
      exact Cadence.nanos_le_of_next hanswer
  | expression e =>
      refine nanos_le_of_askExpression (e := e) ?_ h
      rintro ⟨p, rfl⟩
      exact whole rfl
  | interval w c =>
      have hroute := Window.route_of_contains (inside w (by simp [windows]))
      have hanswer : w.keep (c.next i) = some r := by
        simpa [ask, askInterval, hroute, askCadence] using h
      exact Cadence.nanos_le_of_next (Window.keep_eq_some_iff.1 hanswer).1
  | cron c =>
      have hroute := Window.route_of_contains (inside c.window (by simp [windows]))
      simp only [ask, lookAfter_next] at h
      obtain ⟨e, -, -, -, -, hcompiled, hwithin⟩ := askCron_spec h
      simp only [askWithin, hroute] at hwithin
      cases hask : askExpression e .next i with
      | error x => simp [hask, Except.map] at hwithin
      | ok answer =>
          simp only [hask, Except.map, Except.ok.injEq] at hwithin
          obtain ⟨rfl, -⟩ := Window.keep_eq_some_iff.1 hwithin
          refine nanos_le_of_askExpression ?_ hask
          rintro ⟨p, rfl⟩
          refine whole ?_
          rcases hcompiled with hcompiled | hcompiled <;> simp [mayBePattern, hcompiled]
  | bounded w inner ih =>
      have hroute := Window.route_of_contains (inside w (by simp [windows]))
      simp only [ask, lookAfter_next, hroute] at h
      cases hasked : (inner.ask .next i).answer with
      | error x => simp [hasked, Except.map] at h
      | ok answer =>
          simp only [hasked, Except.map, Except.ok.injEq] at h
          obtain ⟨rfl, -⟩ := Window.keep_eq_some_iff.1 h
          exact ih hasked recurs (fun v hv => inside v (List.mem_cons_of_mem _ hv)) whole

section Drain

theorem drain_of_error
    {s : Schedule}
    {i : Instant}
    {x : Crash}
    (n : Nat)
    (h : (s.next i).answer = .error x) :
    s.drain (n + 1) i = ⟨.error x, (s.next i).schedule, (s.next i).events⟩ := by
  simp only [drain, h]

theorem drain_of_none
    {s : Schedule}
    {i : Instant}
    (n : Nat)
    (h : (s.next i).answer = .ok none) :
    s.drain (n + 1) i = ⟨.ok [none], (s.next i).schedule, (s.next i).events⟩ := by
  simp only [drain, h]

theorem drain_of_some
    {s : Schedule}
    {i r : Instant}
    (n : Nat)
    (h : (s.next i).answer = .ok (some r)) :
    s.drain (n + 1) i =
      ⟨((s.next i).schedule.drain n r).answer.map (some r :: ·),
        ((s.next i).schedule.drain n r).schedule,
        (s.next i).events ++ ((s.next i).schedule.drain n r).events⟩ := by
  simp only [drain, h]

/-- The list of a schedule that has an activation begins with it. -/
theorem drain_eq_cons
    {s : Schedule}
    {i r : Instant}
    {n : Nat}
    {l : List (Option Instant)}
    (h : (s.next i).answer = .ok (some r))
    (hl : (s.drain (n + 1) i).answer = .ok l) :
    ∃ rest, ((s.next i).schedule.drain n r).answer = .ok rest ∧ l = some r :: rest := by
  rw [drain_of_some n h] at hl
  cases hrest : ((s.next i).schedule.drain n r).answer with
  | error x => simp [hrest, Except.map] at hl
  | ok rest =>
      simp only [hrest, Except.map, Except.ok.injEq] at hl
      exact ⟨rest, rfl, hl.symm⟩

variable {w : Window} {e : Instant}

theorem le_of_closes
    {i : Instant}
    (hcloses : w.closes = some e)
    (h : w.contains i = true) :
    i ≤ e := by
  rw [Window.contains, hcloses, Bool.and_eq_true] at h
  simpa using h.2

/-- From an instant with which a schedule is in step it has at most as many activations as
seconds are left to its end. -/
theorem length_drain_le
    {s : Schedule}
    {i : Instant}
    {n : Nat}
    {l : List (Option Instant)}
    (hstep : s.InStep i)
    (hw : w ∈ s.windows)
    (hcloses : w.closes = some e)
    (hl : (s.drain n i).answer = .ok l) :
    (l.reduceOption.length : Int) * nanosPerSecond ≤ e.nanos - i.nanos ∧
      ∀ j ∈ l.reduceOption, j ≤ e := by
  have hle : i.nanos ≤ e.nanos := le_of_closes hcloses (hstep.inside w hw)
  induction n generalizing s i l with
  | zero =>
      obtain rfl : [] = l := by simpa [drain] using hl
      simp only [List.reduceOption_nil, List.length_nil]
      refine ⟨by omega, by simp⟩
  | succ n ih =>
      cases hnext : (s.next i).answer with
      | error x => simp [drain_of_error n hnext] at hl
      | ok answer =>
          cases answer with
          | none =>
              obtain rfl : [none] = l := by simpa [drain_of_none n hnext] using hl
              simp only [List.reduceOption_cons_of_none, List.reduceOption_nil, List.length_nil]
              refine ⟨by omega, by simp⟩
          | some r =>
              obtain ⟨rest, hrest, rfl⟩ := drain_eq_cons hnext hl
              obtain ⟨-, hstep', hwindows⟩ := inStep_of_ask hstep.recurs hnext
              have hsecond := nanos_le_of_next hstep hnext
              have hw' : w ∈ (s.ask .next i).schedule.windows := hwindows ▸ hw
              have hinside : r ≤ e := le_of_closes hcloses (hstep'.inside w hw')
              obtain ⟨hlength, hall⟩ := ih hstep' hw' hrest hinside
              simp only [List.reduceOption_cons_of_some, List.length_cons]
              refine ⟨?_, ?_⟩
              · push_cast
                rw [Int.add_mul]
                omega
              · intro j hj
                rcases List.mem_cons.1 hj with rfl | hj
                · exact hinside
                · exact hall j hj

/-- Asking for more changes nothing, if it does not from the next activation on. -/
theorem drain_succ_eq
    {s : Schedule}
    {i : Instant}
    {k n : Nat}
    (h : ∀ r, (s.next i).answer = .ok (some r) →
      (s.next i).schedule.drain n r = (s.next i).schedule.drain k r ∧
        ∀ l, ((s.next i).schedule.drain n r).answer = .ok l → none ∈ l) :
    s.drain (n + 1) i = s.drain (k + 1) i ∧
      ∀ l, (s.drain (n + 1) i).answer = .ok l → none ∈ l := by
  cases hnext : (s.next i).answer with
  | error x =>
      rw [drain_of_error n hnext, drain_of_error k hnext]
      exact ⟨rfl, by simp⟩
  | ok answer =>
      cases answer with
      | none =>
          rw [drain_of_none n hnext, drain_of_none k hnext]
          refine ⟨rfl, ?_⟩
          intro l hl
          obtain rfl : [none] = l := by simpa using hl
          simp
      | some r =>
          obtain ⟨hsame, hended⟩ := h r hnext
          refine ⟨by rw [drain_of_some n hnext, drain_of_some k hnext, hsame], ?_⟩
          intro l hl
          obtain ⟨rest, hrest, rfl⟩ := drain_eq_cons hnext hl
          exact List.mem_cons_of_mem _ (hended rest hrest)

/-- Once more activations have been asked for than seconds are left, asking for more changes
nothing: the list has ended. -/
theorem drain_eq_of_le
    {s : Schedule}
    {i : Instant}
    {k n : Nat}
    (hstep : s.InStep i)
    (hw : w ∈ s.windows)
    (hcloses : w.closes = some e)
    (hk : e.nanos - i.nanos < k * nanosPerSecond)
    (hn : k ≤ n) :
    s.drain n i = s.drain k i ∧ ∀ l, (s.drain n i).answer = .ok l → none ∈ l := by
  induction k generalizing s i n with
  | zero =>
      have hle : i.nanos ≤ e.nanos := le_of_closes hcloses (hstep.inside w hw)
      simp only [Nat.cast_zero, Int.zero_mul] at hk
      omega
  | succ k ih =>
      obtain ⟨n, rfl⟩ : ∃ m, n = m + 1 := ⟨n - 1, by omega⟩
      refine drain_succ_eq ?_
      intro r hnext
      obtain ⟨-, hstep', hwindows⟩ := inStep_of_ask hstep.recurs hnext
      have hsecond := nanos_le_of_next hstep hnext
      push_cast at hk
      rw [Int.add_mul] at hk
      exact ih hstep' (hwindows ▸ hw) (by omega) (by omega)

/-- Feeding a recurring schedule that has an end with its activations comes to an end. -/
theorem drain_ends
    {s : Schedule}
    (recurs : s.recurs = true)
    (hw : w ∈ s.windows)
    (hcloses : w.closes = some e)
    (i : Instant) :
    ∃ k, ∀ n, k ≤ n →
      s.drain n i = s.drain k i ∧ ∀ l, (s.drain n i).answer = .ok l → none ∈ l := by
  -- Seconds that cover what may be left to the end from wherever the first activation is.
  let k := ((e.nanos - firstNano) / nanosPerSecond).toNat + 1
  refine ⟨k + 1, ?_⟩
  intro n hn
  obtain ⟨n, rfl⟩ : ∃ m, n = m + 1 := ⟨n - 1, by omega⟩
  refine drain_succ_eq ?_
  intro r hnext
  obtain ⟨-, hstep, hwindows⟩ := inStep_of_ask recurs hnext
  have hfirst := r.inCalendar.1
  have hk : e.nanos - r.nanos < k * nanosPerSecond := by
    simp only [k, nanosPerSecond]
    omega
  exact drain_eq_of_le hstep (hwindows ▸ hw) hcloses hk (by omega)

end Drain

/-- **Progress, containment and termination of recurring schedules.**  An answer comes after
the start and lies in all windows on the way to the leaf, and the one after it is at least
a second later.  If some window on the way ends, feeding the schedule with its activations
comes to an end: after the first there are no more than whole seconds are left, and all lie
before the end. -/
theorem recurring_progress
    {s : Schedule}
    (recurs : s.recurs = true)
    (prev : Instant) :
    (∀ r, (s.next prev).answer = .ok (some r) →
      prev < r ∧ (∀ w ∈ s.windows, w.contains r = true) ∧
        ∀ r₂, ((s.next prev).schedule.next r).answer = .ok (some r₂) →
          r.nanos + nanosPerSecond ≤ r₂.nanos) ∧
      ∀ w ∈ s.windows, ∀ e, w.closes = some e →
        (∀ n l r rest, (s.drain n prev).answer = .ok l → l.reduceOption = r :: rest →
          (rest.length : Int) ≤ (e.nanos - r.nanos) / nanosPerSecond ∧
            ∀ j ∈ r :: rest, j ≤ e) ∧
        ∃ k, ∀ n, k ≤ n →
          s.drain n prev = s.drain k prev ∧
            ∀ l, (s.drain n prev).answer = .ok l → none ∈ l := by
  refine ⟨?_, ?_⟩
  · intro r hnext
    obtain ⟨hadmits, hstep, hwindows⟩ := inStep_of_ask recurs hnext
    refine ⟨hadmits, ?_, fun r₂ hnext₂ => nanos_le_of_next hstep hnext₂⟩
    rw [← hwindows]
    exact hstep.inside
  · intro w hw e hcloses
    refine ⟨?_, drain_ends recurs hw hcloses prev⟩
    intro n l r rest hl hactivations
    cases n with
    | zero =>
        obtain rfl : [] = l := by simpa [drain] using hl
        simp at hactivations
    | succ n =>
        cases hnext : (s.next prev).answer with
        | error x => simp [drain_of_error n hnext] at hl
        | ok answer =>
            cases answer with
            | none =>
                obtain rfl : [none] = l := by simpa [drain_of_none n hnext] using hl
                simp at hactivations
            | some first =>
                obtain ⟨more, hmore, rfl⟩ := drain_eq_cons hnext hl
                rw [List.reduceOption_cons_of_some, List.cons.injEq] at hactivations
                obtain ⟨rfl, rfl⟩ := hactivations
                obtain ⟨-, hstep, hwindows⟩ := inStep_of_ask recurs hnext
                have hw' : w ∈ (s.ask .next prev).schedule.windows := hwindows ▸ hw
                obtain ⟨hlength, hall⟩ := length_drain_le hstep hw' hcloses hmore
                refine ⟨?_, ?_⟩
                · rw [Int.le_ediv_iff_mul_le (by decide)]
                  exact hlength
                · intro j hj
                  rcases List.mem_cons.1 hj with rfl | hj
                  · exact le_of_closes hcloses (hstep.inside w hw')
                  · exact hall j hj

/-- The first ten seconds. -/
def tenSeconds : Window where
  opens := some .epoch
  closes := some ⟨10 * 1000000000, by decide⟩

/-- Every three seconds of the first ten. -/
def everyThird : Schedule :=
  .bounded tenSeconds (.every ⟨⟨3 * nanosPerSecond, by decide⟩, by decide, by decide⟩)

theorem recurring_progress_everyThird :
    everyThird.recurs = true ∧
      ∃ r : Instant,
        (everyThird.next .epoch).answer = .ok (some r) ∧
        .epoch < r ∧
        tenSeconds.contains r = true ∧
        ∃ k, ∀ n, k ≤ n → everyThird.drain n .epoch = everyThird.drain k .epoch := by
  have hnext : (everyThird.next .epoch).answer =
      .ok (some ⟨3 * 1000000000, by decide⟩) := by
    rfl
  obtain ⟨hprogress, hends⟩ := recurring_progress (s := everyThird) rfl .epoch
  obtain ⟨hlater, hinside, -⟩ := hprogress _ hnext
  have htenSeconds : tenSeconds ∈ everyThird.windows := List.mem_singleton.2 rfl
  obtain ⟨-, k, hk⟩ := hends tenSeconds htenSeconds _ rfl
  exact ⟨rfl, _, hnext, hlater, hinside tenSeconds htenSeconds, k, fun n hn => (hk n hn).1⟩

end Schedule
end Timetable
