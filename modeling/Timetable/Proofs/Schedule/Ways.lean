import Timetable.Proofs.Schedule.Agreement
import Timetable.Proofs.Span.Blanks

/-!
# Ways to a bounded interval

A cadence in a window can be made in four ways: as an interval with a window of
its own, by bounding the cadence, by bounding the expression that a text is read
as, and as that text with a window.  All four give the same next activation.

They do not all begin alike.  The first activation at or after an instant in the
window is that instant for an interval with a window of its own.  The other three
have no answer of their own to that question and look after the nanosecond before:
they begin a whole interval later, one nanosecond short, unless the window opens
at the instant.  Whoever puts another window around them sees the difference at
the begin of that window.

Main results:

* the text of an interval is read as its cadence (parse_every);
* an interval begins like the bounded cadence outside its window and at the begin
  of the window, and nowhere else (first_interval_iff);
* the four ways compared (ways_agree_iff).
-/

namespace Timetable

/-! ### The text of an interval -/

namespace Cadence

theorem ofSpan?_interval (c : Cadence) : ofSpan? c.interval = .ok c := by
  unfold ofSpan?
  rw [dif_pos c.atLeast, dif_pos c.atMost]

theorem interval_ne_zero (c : Cadence) : c.interval ≠ Span.zero := by
  intro hzero
  have h : Span.second ≤ c.interval := c.atLeast
  rw [hzero] at h
  revert h
  decide

end Cadence

namespace Expression

/-- No pattern has a name that begins like the text of an interval. -/
theorem namedPattern?_every
    (l : Location)
    (words : String) :
    namedPattern? l ("@every " ++ words) = none := by
  have hne : ∀ name ∈ ["@yearly", "@annually", "@monthly", "@weekly", "@daily", "@midnight",
      "@hourly"], "@every " ++ words ≠ name := by
    intro name hname heq
    have hsecond := congrArg (fun s : String => s.toList[1]?) heq
    simp only [List.mem_cons, List.not_mem_nil, or_false] at hname
    rcases hname with rfl | rfl | rfl | rfl | rfl | rfl | rfl <;> simp at hsecond
  simp [namedPattern?, hne]

theorem readDescriptor_every
    {c : Cadence}
    {words : String}
    (h : Span.ofWords words.toList = .ok c.interval)
    (l : Location) :
    readDescriptor l ("@every " ++ words).toList = .ok (.every c) := by
  have hlead : everyLead.isPrefixOf (everyLead ++ words.toList) = true :=
    List.isPrefixOf_iff_prefix.2 (List.prefix_append _ _)
  rw [readDescriptor, String.ofList_toList, namedPattern?_every, String.toList_append]
  change readEvery (everyLead ++ words.toList) = _
  rw [readEvery, if_pos hlead, List.drop_left, Span.ofWords_trim c.interval_ne_zero h]
  simp only [c.ofSpan?_interval]

end Expression

/-- The text of an interval is read as its cadence wherever descriptors are allowed. -/
theorem Parser.parse_every
    {p : Parser}
    {c : Cadence}
    {words : String}
    (descriptors : p.layout.descriptor = true)
    (h : Span.ofWords words.toList = .ok c.interval) :
    p.parse ("@every " ++ words) = .ok (.every c) := by
  have hread := Expression.readDescriptor_every h p.location
  have hhead : ("@every " ++ words).toList = '@' :: ("every ".toList ++ words.toList) := by
    rw [String.toList_append]
    rfl
  have hsome : "@every " ++ words ≠ "" := by
    intro h
    simp [h] at hhead
  have noLead : ∀ lead ∈ zoneLeads, ¬ lead <+: ("@every " ++ words).toList := by
    rw [hhead]
    simp [zoneLeads]
  rw [parse, parseWith_of_no_lead hsome noLead, readBody, if_pos (by rw [hhead]; rfl),
    if_pos descriptors, hread]

/-! ### An interval and the bounded cadence -/

namespace Schedule

variable {w : Window} {c : Cadence} {i p : Instant}

/-- Asked for the next activation, an interval answers as its cadence in its window. -/
theorem next_interval
    (w : Window)
    (c : Cadence)
    (i : Instant) :
    ((interval w c).next i).answer = ((bounded w (every c)).next i).answer := by
  rw [next, next, answer_bounded]
  simp only [ask, askInterval, askWithin, lookAfter_next, Bind.bind, Except.bind]
  cases w.route i <;> rfl

/-- Asked for the first activation, an interval begins at the instant or at the begin of its
window, whichever is later. -/
theorem first_interval
    (w : Window)
    (c : Cadence)
    (i : Instant) :
    ((interval w c).first i).answer = .ok (w.keep (some (w.opens.elim i (max i)))) := by
  simp only [first, ask, askInterval]
  cases w.opens with
  | none => rfl
  | some b =>
      dsimp only [Option.elim_some]
      rcases lt_or_ge i b with hlt | hge
      · rw [if_pos hlt, max_eq_right (le_of_lt hlt)]
      · rw [if_neg (not_lt_of_ge hge), max_eq_left hge]

/-- Where the window has opened an interval begins at once. -/
theorem first_interval_of_opens_le (begun : ∀ b, w.opens = some b → b ≤ i) :
    ((interval w c).first i).answer = .ok (w.keep (some i)) := by
  rw [first_interval]
  cases hopens : w.opens with
  | none => rfl
  | some b => rw [Option.elim_some, max_eq_left (begun b hopens)]

theorem first_bounded
    (before : i.before? = some p)
    (s : Schedule) :
    ((bounded w s).first i).answer = askWithin w (fun q i => (s.ask q i).answer) p := by
  rw [first, answer_bounded]
  simp only [lookAfter, before, Bind.bind, Except.bind]

/-- Up to the begin of its window an interval begins there, whichever way it was made. -/
theorem first_of_le_opens
    {b : Instant}
    (before : i.before? = some p)
    (opens : w.opens = some b)
    (h : i ≤ b) :
    ((interval w c).first i).answer = .ok (w.keep (some b)) ∧
      ((bounded w (every c)).first i).answer = .ok (w.keep (some b)) := by
  have hp : p < b := (Instant.lt_iff_of_before before).2 h
  constructor
  · rw [first_interval, opens, Option.elim_some, max_eq_right h]
  · rw [first_bounded before]
    simp only [askWithin, Window.route, opens, if_pos hp]
    cases hover : w.isOver p with
    | true =>
        rw [Window.keep_of_isOver hover (le_of_lt hp)]
        rfl
    | false => rfl

/-- Behind the begin of its window a bounded cadence looks a whole interval ahead of the
nanosecond before. -/
theorem first_bounded_of_opens_lt
    (before : i.before? = some p)
    (begun : ∀ b, w.opens = some b → b < i) :
    ((bounded w (every c)).first i).answer =
      .ok (if w.isOver p then none else w.keep (c.next p)) := by
  have hroute : w.route p = if w.isOver p then none else some (.next, p) := by
    unfold Window.route
    cases hopens : w.opens with
    | none => rfl
    | some b =>
        have hb : ¬ p < b := fun hp =>
          absurd ((Instant.lt_iff_of_before before).1 hp) (not_le_of_gt (begun b hopens))
        simp only [if_neg hb]
  rw [first_bounded before]
  simp only [askWithin, hroute]
  cases w.isOver p <;> rfl

/-- A cadence has left the instant behind when it is asked about the nanosecond before. -/
theorem lt_next_of_before
    {r : Instant}
    (before : i.before? = some p)
    (h : c.next p = some r) :
    i < r := by
  have hlong := Cadence.nanos_le_of_next h
  have hp := Instant.shift?_eq_some.1 before
  rw [Instant.lt_iff]
  simp only [nanosPerSecond] at hlong
  omega

/-- An interval begins like the bounded cadence exactly outside its window and at the begin of
its window. -/
theorem first_interval_iff (before : i.before? = some p) :
    ((interval w c).first i).answer = ((bounded w (every c)).first i).answer ↔
      w.contains i = false ∨ w.opens = some i := by
  by_cases hearly : ∃ b, w.opens = some b ∧ i ≤ b
  · obtain ⟨b, hopens, hle⟩ := hearly
    obtain ⟨hinterval, hbounded⟩ := first_of_le_opens (c := c) before hopens hle
    rw [hinterval, hbounded, eq_self, true_iff]
    rcases lt_or_eq_of_le hle with hlt | rfl
    · left
      rw [← Bool.not_eq_true, Window.contains_iff]
      exact fun hin => absurd (hin.1 b hopens) (not_le_of_gt hlt)
    · exact Or.inr hopens
  · have begun : ∀ b, w.opens = some b → b < i :=
      fun b hopens => lt_of_not_ge fun hle => hearly ⟨b, hopens, hle⟩
    have hlater : w.opens ≠ some i := fun hopens => lt_irrefl i (begun i hopens)
    rw [first_interval_of_opens_le fun b hopens => le_of_lt (begun b hopens),
      first_bounded_of_opens_lt before begun, Except.ok.injEq]
    cases hin : w.contains i with
    | false =>
        have hover := Window.isOver_of_not_contains (fun b hopens => le_of_lt (begun b hopens)) hin
        have hnone : w.keep (c.next p) = none := by
          cases hnext : c.next p with
          | none => rfl
          | some r =>
              exact Window.keep_of_isOver hover (le_of_lt (lt_next_of_before before hnext))
        rw [Window.keep_of_isOver hover (le_refl i), hnone, ite_self]
        simp
    | true =>
        rw [Window.keep_eq_some_iff.2 ⟨rfl, hin⟩]
        simp only [Bool.true_eq_false, hlater, or_false, iff_false]
        intro heq
        split at heq
        · simp at heq
        · have hnext := (Window.keep_eq_some_iff.1 heq.symm).1
          exact lt_irrefl i (lt_next_of_before before hnext)

/-! ### The first activation in another window -/

/-- Before the begin of a window the schedule in it is asked for its first activation from the
begin on. -/
theorem next_bounded_of_lt_opens
    {b : Instant}
    (opens : w.opens = some b)
    (h : i < b)
    (s : Schedule) :
    ((bounded w s).next i).answer =
      if w.isOver i then .ok none else (s.first b).answer.map w.keep := by
  rw [next_bounded]
  simp only [Window.route, opens, if_pos h]
  cases w.isOver i <;> rfl

/-- Nothing is kept by a window that opens when it is over. -/
theorem next_bounded_eq_none
    {b : Instant}
    {s : Schedule}
    {x : Option Instant}
    (opens : w.opens = some b)
    (h : i < b)
    (outside : w.contains b = false)
    (recurs : s.recurs = true)
    (hfirst : (s.first b).answer = .ok x) :
    ((bounded w s).next i).answer = .ok none := by
  have hover : w.isOver b = true := by
    refine Window.isOver_of_not_contains ?_ outside
    rintro b' hopens
    rw [opens, Option.some.injEq] at hopens
    exact le_of_eq hopens.symm
  have hnone : w.keep x = none := by
    cases x with
    | none => rfl
    | some r => exact Window.keep_of_isOver hover (inStep_of_ask recurs hfirst).1
  rw [next_bounded_of_lt_opens opens h, hfirst, Except.map, hnone, ite_self]

/-- In another window the difference shows at the begin of that window, where the first
activation of an interval with a window of its own is. -/
theorem next_bounded_interval_iff
    {w' : Window}
    {b : Instant}
    (opens : w'.opens = some b)
    (h : i < b) :
    (((bounded w' (interval w c)).next i).answer =
        ((bounded w' (bounded w (every c))).next i).answer ↔
      w'.contains b = false ∨ w.contains b = false ∨ w.opens = some b) ∧
    (w'.contains b = true → w.contains b = true →
      ((bounded w' (interval w c)).next i).answer = .ok (some b)) := by
  obtain ⟨p, before⟩ := Instant.exists_before h
  obtain ⟨x, hfirst⟩ : ∃ x, ((bounded w (every c)).first b).answer = .ok x := by
    rw [first_bounded before, askWithin]
    split
    · exact ⟨none, rfl⟩
    · exact ⟨_, rfl⟩
  cases hinside : w'.contains b with
  | false =>
      rw [next_bounded_eq_none opens h hinside rfl (first_interval w c b),
        next_bounded_eq_none opens h hinside rfl hfirst]
      simp
  | true =>
      have hopen := Window.isOver_of_contains hinside (le_of_lt h)
      simp only [next_bounded_of_lt_opens opens h, hopen, Bool.false_eq_true, Bool.true_eq_false,
        if_false, false_or, forall_const]
      have hbegin : w.contains b = true →
          ((interval w c).first b).answer.map w'.keep = .ok (some b) := by
        intro hin
        rw [first_interval_of_opens_le (Window.contains_iff.1 hin).1,
          Window.keep_eq_some_iff.2 ⟨rfl, hin⟩, Except.map,
          Window.keep_eq_some_iff.2 ⟨rfl, hinside⟩]
      refine ⟨⟨?_, ?_⟩, hbegin⟩
      · intro heq
        cases hin : w.contains b with
        | false => exact Or.inl rfl
        | true =>
            have hkept : w'.keep x = some b := by
              rw [hbegin hin, hfirst, Except.map, Except.ok.injEq] at heq
              exact heq.symm
            have hfirsts : ((interval w c).first b).answer =
                ((bounded w (every c)).first b).answer := by
              rw [first_interval_of_opens_le (Window.contains_iff.1 hin).1,
                Window.keep_eq_some_iff.2 ⟨rfl, hin⟩, hfirst,
                (Window.keep_eq_some_iff.1 hkept).1]
            rw [← hin]
            exact (first_interval_iff before).1 hfirsts
      · intro hsame
        rw [(first_interval_iff before).2 hsame]

end Schedule

/-! ### The four ways -/

/-- How a cadence in a window is made. -/
inductive Way where
  | interval
  | every
  | expression
  | text
  deriving DecidableEq, Repr

namespace Way

/-- The cadence in a window, made in one of the ways; two of them go through a text or the
expression that it is read as. -/
def schedule
    (c : Cadence)
    (e : Expression)
    (t : CronText)
    (w : Window) :
    Way → Schedule
  | interval => .interval w c
  | every => .bounded w (.every c)
  | expression => .bounded w (.expression e)
  | text => .cron (t.withWindow w)

variable {c : Cadence} {t : CronText} {w : Window}

/-- All ways but the first agree. -/
theorem agrees_every
    (reads : t.Reads (.every c))
    (a : Way)
    (h : a ≠ interval) :
    (a.schedule c (.every c) t w).Agrees (.bounded w (.every c)) := by
  have hexpression := (Schedule.agrees_expression_every c).bounded w
  cases a with
  | interval => exact absurd rfl h
  | every => exact fun _ _ => rfl
  | expression => exact hexpression
  | text =>
      have htext : (t.withWindow w).Reads (.every c) := reads
      exact fun q i => (Schedule.agrees_cron htext q i).trans (hexpression q i)

/-- What is the same for two ways, if the first way is to be told from the others. -/
theorem eq_iff
    {α : Type}
    {f : Schedule → α}
    {P : Prop}
    (reads : t.Reads (.every c))
    (congr : ∀ s, s.Agrees (.bounded w (.every c)) → f s = f (.bounded w (.every c)))
    (apart : f (.interval w c) = f (.bounded w (.every c)) ↔ P)
    (a b : Way) :
    f (a.schedule c (.every c) t w) = f (b.schedule c (.every c) t w) ↔
      (a = interval ↔ b = interval) ∨ P := by
  by_cases ha : a = interval <;> by_cases hb : b = interval
  · simp [ha, hb]
  · rw [ha, congr _ (agrees_every reads b hb)]
    simp only [hb, true_iff, false_or]
    exact apart
  · rw [hb, congr _ (agrees_every reads a ha), eq_comm]
    simp only [ha, false_iff, not_true_eq_false, false_or]
    exact apart
  · rw [congr _ (agrees_every reads a ha), congr _ (agrees_every reads b hb)]
    simp [ha, hb]

end Way

/-- **The four ways to a cadence in a window compared.**  The text of an interval is read as its
cadence, whatever words say how long it is, and asked for the next activation all four ways
answer alike.  Asked for the first activation at or after an instant that has a nanosecond before
it, an interval with a window of its own parts from the others exactly at the instants inside the
window but its begin.  Within another window that shows at the begin of that window: there alone
the interval has its first activation at the begin itself. -/
theorem ways_agree_iff
    {c : Cadence}
    {words : String}
    {p : Parser}
    (denotes : Span.ofWords words.toList = .ok c.interval)
    (descriptors : p.layout.descriptor = true)
    (w : Window) :
    ∃ e, p.parse ("@every " ++ words) = .ok e ∧
      ∀ a b : Way,
        let t := (CronText.ofText ("@every " ++ words)).withParser p
        let s := a.schedule c e t w
        let s' := b.schedule c e t w
        (∀ i, (s.next i).answer = (s'.next i).answer) ∧
        (∀ i, i.before? ≠ none →
          ((s.first i).answer = (s'.first i).answer ↔
            (a = .interval ↔ b = .interval) ∨ w.contains i = false ∨ w.opens = some i)) ∧
        ∀ (w' : Window) (start prev : Instant),
          w'.opens = some start →
          prev < start →
            (((Schedule.bounded w' s).next prev).answer =
                ((Schedule.bounded w' s').next prev).answer ↔
              (a = .interval ↔ b = .interval) ∨
                w'.contains start = false ∨ w.contains start = false ∨ w.opens = some start) ∧
            (w'.contains start = true →
              w.contains start = true →
                (((Schedule.bounded w' s).next prev).answer = .ok (some start) ↔
                  a = .interval ∨ w.opens = some start)) := by
  have hparse : p.parse ("@every " ++ words) = .ok (.every c) :=
    Parser.parse_every descriptors denotes
  refine ⟨.every c, hparse, ?_⟩
  have reads : ((CronText.ofText ("@every " ++ words)).withParser p).Reads (.every c) :=
    Or.inr ⟨rfl, hparse⟩
  intro a b t s s'
  refine ⟨fun i => ?_, fun i hbefore => ?_, fun w' start prev opens hprev => ⟨?_, ?_⟩⟩
  · have hnext := Way.eq_iff (P := True) reads (f := fun s => (s.next i).answer)
      (fun s hs => hs .next i) (iff_true_intro (Schedule.next_interval w c i)) a b
    exact hnext.2 (Or.inr trivial)
  · obtain ⟨p, before⟩ := Option.ne_none_iff_exists'.1 hbefore
    exact Way.eq_iff reads (f := fun s => (s.first i).answer) (fun s hs => hs .first i)
      (Schedule.first_interval_iff before) a b
  · exact Way.eq_iff reads (f := fun s => ((Schedule.bounded w' s).next prev).answer)
      (fun s hs => hs.bounded w' .next prev)
      (Schedule.next_bounded_interval_iff opens hprev).1 a b
  · intro hinside hin
    obtain ⟨hiff, hbegin⟩ := Schedule.next_bounded_interval_iff (c := c) opens hprev
    have hsame := Way.eq_iff reads (f := fun s => ((Schedule.bounded w' s).next prev).answer)
      (fun s hs => hs.bounded w' .next prev) hiff a .interval
    have honly : (a = .interval ↔ Way.interval = .interval) ∨ w'.contains start = false ∨
        w.contains start = false ∨ w.opens = some start ↔
          a = .interval ∨ w.opens = some start := by
      simp [hinside, hin]
    rw [← hbegin hinside hin]
    exact hsame.trans honly

/-- A minute. -/
def minutely : Cadence :=
  ⟨⟨60 * nanosPerSecond, by decide⟩, by decide, by decide⟩

/-- From the beginning of 1970 on. -/
def sinceEpoch : Window where
  opens := some .epoch

theorem ways_agree_iff_minutely :
    Span.ofWords " 1m ".toList = .ok minutely.interval ∧
      Layout.standard.descriptor = true ∧
      ∃ e,
        Parser.standard.parse "@every  1m " = .ok e ∧
        ∀ a : Way,
          let s := a.schedule minutely e (CronText.ofText "@every  1m ") sinceEpoch
          (s.first .epoch).answer = .ok (some .epoch) ∧
            ((Schedule.bounded sinceEpoch s).next ⟨-1, by decide⟩).answer =
              .ok (some .epoch) := by
  have denotes : Span.ofWords " 1m ".toList = .ok minutely.interval := by decide
  obtain ⟨e, hparse, hways⟩ := ways_agree_iff (p := .standard) denotes (by decide) sinceEpoch
  refine ⟨denotes, by decide, e, hparse, fun a => ?_⟩
  obtain ⟨-, hfirst, houter⟩ := hways a .interval
  constructor
  · have hepoch : Instant.epoch.before? ≠ none := by decide
    exact ((hfirst .epoch hepoch).2 (Or.inr (Or.inr rfl))).trans rfl
  · exact ((houter sinceEpoch .epoch _ rfl (by decide)).2 rfl rfl).2 (Or.inr rfl)

/-- A minute that is bounded begins one nanosecond short of a minute after the instant at which
an interval of a minute begins. -/
theorem minutely_begins_late :
    ((Schedule.interval .unbounded minutely).first .epoch).answer = .ok (some .epoch) ∧
      ((Schedule.bounded .unbounded (.every minutely)).first .epoch).answer =
        .ok (some ⟨59999999999, by decide⟩) ∧
      ((Schedule.bounded .unbounded (.every minutely)).first .epoch).answer ≠
        ((Schedule.interval .unbounded minutely).first .epoch).answer := by
  refine ⟨rfl, rfl, by decide⟩

end Timetable
