import Mathlib.Order.MinMax
import Timetable.Proofs.Schedule.Agreement

/-!
# Nested windows

Windows that are put around a pattern one after the other restrict it to the
instants that lie in all of them, so they should act as one window with the latest
of their begins and the earliest of their ends.  On the way inwards each window
that has not opened moves the instant after which is looked, up to the nanosecond
before its begin, and a window that is over by then answers at once.

The answers are the same but for one case.  If an inner window ends before an
outer one begins, the inner one answers that there is nothing, and the pattern is
not asked at all.  The one window does ask it, and the pattern crashes if its clock
has no reading for that instant, which can be only at an end of the calendar.

Main results:

* a window asks a schedule that looks after the nanosecond before for its next
  activation after the start of the window (next_bounded_of_steady);
* the common part of windows holds the instants that lie in all of them
  (contains_meetAll_iff);
* what nested windows answer (answer_within);
* when nested windows act as one (nested_windows_iff).
-/

namespace Timetable

theorem Instant.nanos_max (i j : Instant) : (max i j).nanos = max i.nanos j.nanos :=
  Monotone.map_max (f := Instant.nanos) fun _ _ h => h

/-! ### The common part of windows -/

namespace Window

/-- The common part of two windows: from the later begin to the earlier end. -/
def meet
    (v w : Window) :
    Window where
  opens := Option.merge max v.opens w.opens
  closes := Option.merge min v.closes w.closes

/-- The common part of some windows, from the latest begin to the earliest end. -/
def meetAll (ws : List Window) : Window :=
  ws.foldl meet unbounded

/-- The instant after which a schedule in the window is asked: the given one, or the nanosecond
before the begin of the window if that is later. -/
def startAfter
    (w : Window)
    (i : Instant) :
    Instant :=
  (w.opens.bind Instant.before?).elim i (max i)

/-- The window has ended at the nanosecond before the begin of another one. -/
def Misses (v w : Window) : Prop :=
  ∃ e b, v.closes = some e ∧ w.opens = some b ∧ e.nanos + 1 < b.nanos

variable {v w : Window} {i b p : Instant}

theorem meetAll_append_one
    (ws : List Window)
    (w : Window) :
    meetAll (ws ++ [w]) = (meetAll ws).meet w := by
  rw [meetAll, List.foldl_append]
  rfl

theorem contains_meet (v w : Window) (i : Instant) :
    (v.meet w).contains i = (v.contains i && w.contains i) := by
  simp only [contains, meet]
  rw [Option.all_merge fun a b => by simp, Option.all_merge fun a b => by simp]
  ac_rfl

theorem isOver_meet (v w : Window) (i : Instant) :
    (v.meet w).isOver i = (v.isOver i || w.isOver i) :=
  Option.any_merge fun a b => by simp

/-- Both windows keep what lies in their common part. -/
theorem keep_meet (v w : Window) (a : Option Instant) :
    (v.meet w).keep a = w.keep (v.keep a) := by
  rw [keep, keep, keep, Option.filter_filter]
  congr 1
  funext i
  exact contains_meet v w i

theorem isOver_meetAll_iff (ws : List Window) (i : Instant) :
    (meetAll ws).isOver i = true ↔ ∃ w ∈ ws, w.isOver i = true := by
  induction ws using List.reverseRecOn with
  | nil => simp [meetAll, isOver, unbounded]
  | append_singleton ws w ih =>
      rw [meetAll_append_one, isOver_meet, Bool.or_eq_true, ih]
      simp [or_and_right, exists_or]

/-- The instants of the common part lie in all windows. -/
theorem contains_meetAll_iff (ws : List Window) (i : Instant) :
    (meetAll ws).contains i = true ↔ ∀ w ∈ ws, w.contains i = true := by
  induction ws using List.reverseRecOn with
  | nil => simp [meetAll]
  | append_singleton ws w ih =>
      rw [meetAll_append_one, contains_meet, Bool.and_eq_true, ih]
      simp [or_imp, forall_and]

theorem nanos_startAfter (opens : w.opens = some b) :
    (w.startAfter i).nanos = max i.nanos (b.nanos - 1) := by
  rw [startAfter, opens, Option.bind_some]
  cases hbefore : b.before? with
  | none =>
      have hb : ¬ firstNano ≤ b.nanos - 1 := by
        intro hfirst
        have hlast := b.inCalendar.2
        have hsome : b.before? = some ⟨b.nanos - 1, hfirst, by omega⟩ :=
          Instant.shift?_eq_some.2 rfl
        rw [hbefore] at hsome
        simp at hsome
      have hi := i.inCalendar.1
      rw [Option.elim_none]
      omega
  | some p =>
      have hp := Instant.shift?_eq_some.1 hbefore
      rw [Option.elim_some, Instant.nanos_max, hp]
      rfl

theorem startAfter_of_opens_eq_none (opens : w.opens = none) : w.startAfter i = i := by
  rw [startAfter, opens]
  rfl

/-- A window that is not over asks for the activation after its start: for the next one after it,
or for the first one from the instant behind it. -/
theorem route_of_not_isOver (running : w.isOver i = false) :
    w.route i = some (.next, w.startAfter i) ∨
      ∃ b, w.route i = some (.first, b) ∧ b.before? = some (w.startAfter i) := by
  unfold route
  rw [running, if_neg (by decide)]
  cases hopens : w.opens with
  | none =>
      left
      rw [startAfter_of_opens_eq_none hopens]
  | some b =>
      have hstart := nanos_startAfter (i := i) hopens
      dsimp only
      by_cases hi : i < b
      · right
        obtain ⟨p, hbefore⟩ := Instant.exists_before hi
        have hnanos := Instant.lt_iff.1 hi
        have hp := Instant.shift?_eq_some.1 hbefore
        have hsame : w.startAfter i = p := Instant.ext_nanos (by omega)
        rw [if_pos hi, hsame]
        exact ⟨b, rfl, hbefore⟩
      · left
        have hnanos : ¬ i.nanos < b.nanos := fun h => hi (Instant.lt_iff.2 h)
        have hsame : w.startAfter i = i := Instant.ext_nanos (by omega)
        rw [if_neg hi, hsame]

/-- The start of the common part is reached window by window. -/
theorem startAfter_meet (v w : Window) (i : Instant) :
    (v.meet w).startAfter i = v.startAfter (w.startAfter i) := by
  refine Instant.ext_nanos ?_
  cases hv : v.opens with
  | none =>
      have hmeet : (v.meet w).opens = w.opens := by simp [meet, hv]
      rw [startAfter_of_opens_eq_none hv, startAfter, startAfter, hmeet]
  | some a =>
      cases hw : w.opens with
      | none =>
          have hmeet : (v.meet w).opens = some a := by simp [meet, hv, hw]
          rw [startAfter_of_opens_eq_none hw, nanos_startAfter hmeet, nanos_startAfter hv]
      | some b =>
          have hmeet : (v.meet w).opens = some (max a b) := by simp [meet, hv, hw]
          rw [nanos_startAfter hmeet, nanos_startAfter hv, nanos_startAfter hw,
            Instant.nanos_max]
          omega

/-- A window is over at the start of another one if it was over before or misses it. -/
theorem isOver_startAfter_iff :
    v.isOver (w.startAfter i) = true ↔ v.isOver i = true ∨ v.Misses w := by
  rw [isOver_iff, isOver_iff]
  cases hw : w.opens with
  | none => simp [startAfter_of_opens_eq_none hw, Misses, hw]
  | some b =>
      have hlt : ∀ e : Instant, e < w.startAfter i ↔ e < i ∨ e.nanos + 1 < b.nanos := by
        intro e
        rw [Instant.lt_iff, Instant.lt_iff, nanos_startAfter hw]
        omega
      simp only [hlt, Misses, hw, Option.some.injEq]
      constructor
      · rintro ⟨e, hcloses, he | he⟩
        · exact Or.inl ⟨e, hcloses, he⟩
        · exact Or.inr ⟨e, b, hcloses, rfl, he⟩
      · rintro (⟨e, hcloses, he⟩ | ⟨e, b, hcloses, rfl, he⟩)
        · exact ⟨e, hcloses, Or.inl he⟩
        · exact ⟨e, hcloses, Or.inr he⟩

/-- The common part of some windows opens no earlier than any of them. -/
theorem opens_le_meetAll
    {ws : List Window}
    (hw : w ∈ ws)
    (opens : w.opens = some b) :
    ∃ b', (meetAll ws).opens = some b' ∧ b ≤ b' := by
  induction ws using List.reverseRecOn with
  | nil => simp at hw
  | append_singleton ws u ih =>
      rw [meetAll_append_one, meet]
      rcases List.mem_append.1 hw with hmem | hlast
      · obtain ⟨b', hopens, hle⟩ := ih hmem
        rw [hopens]
        cases u.opens with
        | none => exact ⟨b', rfl, hle⟩
        | some c => exact ⟨max b' c, rfl, le_max_of_le_left hle⟩
      · rw [List.mem_singleton.1 hlast] at opens
        rw [opens]
        cases (meetAll ws).opens with
        | none => exact ⟨b, rfl, le_refl b⟩
        | some c => exact ⟨max c b, rfl, le_max_right c b⟩

/-- If one window misses another one, their common part is over at its own start. -/
theorem isOver_startAfter_of_misses
    {ws : List Window}
    (hv : v ∈ ws)
    (hw : w ∈ ws)
    (h : v.Misses w) :
    (meetAll ws).isOver ((meetAll ws).startAfter i) = true := by
  obtain ⟨e, b, hcloses, hopens, he⟩ := h
  obtain ⟨b', hopens', hle⟩ := opens_le_meetAll hw hopens
  rw [Instant.le_iff] at hle
  have hmisses : v.Misses (meetAll ws) := ⟨e, b', hcloses, hopens', by omega⟩
  rw [isOver_meetAll_iff]
  exact ⟨v, hv, isOver_startAfter_iff.2 (Or.inr hmisses)⟩

instance : RightCommutative meet where
  right_comm u v w := by
    simp only [meet, mk.injEq]
    have hmax : RightCommutative (Option.merge (max : Instant → Instant → Instant)) :=
      inferInstance
    have hmin : RightCommutative (Option.merge (min : Instant → Instant → Instant)) :=
      inferInstance
    exact ⟨hmax.right_comm _ _ _, hmin.right_comm _ _ _⟩

/-- The common part of some windows does not depend on their order. -/
theorem meetAll_perm
    {vs ws : List Window}
    (h : vs.Perm ws) :
    meetAll vs = meetAll ws :=
  h.foldl_eq unbounded

end Window

/-! ### What nested windows answer -/

namespace Schedule

variable {s : Schedule} {w : Window} {ws : List Window} {i : Instant}

/-- The schedule in some windows, the first of them around the schedule itself. -/
def within
    (s : Schedule)
    (ws : List Window) :
    Schedule :=
  ws.foldl (fun s w => bounded w s) s

theorem within_append_one
    (s : Schedule)
    (ws : List Window)
    (w : Window) :
    s.within (ws ++ [w]) = bounded w (s.within ws) := by
  rw [within, List.foldl_append]
  rfl

theorem Agrees.within
    {s' : Schedule}
    (h : s.Agrees s')
    (ws : List Window) :
    (s.within ws).Agrees (s'.within ws) := by
  induction ws generalizing s s' with
  | nil => exact h
  | cons w ws ih => exact ih (h.bounded w)

/-- For its first activation from an instant on the schedule looks after the nanosecond
before. -/
def Steady (s : Schedule) : Prop :=
  ∀ i p, i.before? = some p → (s.first i).answer = (s.next p).answer

theorem steady_pattern (p : Pattern) : (expression (.pattern p)).Steady := by
  intro i before hbefore
  simp only [first, next, ask, askExpression, Expression.first, hbefore, Expression.next]

theorem steady_bounded
    (w : Window)
    (s : Schedule) :
    (bounded w s).Steady := by
  intro i p hbefore
  simp only [first, next, answer_bounded, lookAfter, hbefore]

theorem Steady.within
    (steady : s.Steady)
    (ws : List Window) :
    (s.within ws).Steady := by
  cases ws using List.reverseRecOn with
  | nil => exact steady
  | append_singleton ws w _ =>
      rw [within_append_one]
      exact steady_bounded w _

/-- A window that is not over asks for the next activation after its start. -/
theorem next_bounded_of_steady
    (steady : s.Steady)
    (w : Window)
    (i : Instant) :
    ((bounded w s).next i).answer =
      if w.isOver i then .ok none else (s.next (w.startAfter i)).answer.map w.keep := by
  rw [next_bounded]
  cases hover : w.isOver i with
  | true =>
      rw [Window.route, if_pos hover]
      rfl
  | false =>
      rw [if_neg (by decide)]
      rcases Window.route_of_not_isOver hover with hroute | ⟨b, hroute, hbefore⟩
      · rw [hroute]
        rfl
      · rw [hroute, ← steady b _ hbefore]
        rfl

/-- One of the windows is over, or an outer one is missed by an inner one. -/
def Closed
    (ws : List Window)
    (i : Instant) :
    Prop :=
  (∃ w ∈ ws, w.isOver i = true) ∨ ¬ ws.Pairwise fun inner outer => ¬ inner.Misses outer

theorem closed_append_one_iff :
    Closed (ws ++ [w]) i ↔ w.isOver i = true ∨ Closed ws (w.startAfter i) := by
  unfold Closed
  rw [List.pairwise_append]
  simp only [Window.isOver_startAfter_iff, List.mem_append, List.mem_singleton,
    List.pairwise_singleton, forall_eq, true_and]
  grind

/-- What nested windows answer: nothing if they are closed, and otherwise what the schedule has
after the start of their common part, if it lies in it. -/
theorem answer_within
    (steady : s.Steady)
    (ws : List Window)
    (i : Instant) :
    (Closed ws i → ((s.within ws).next i).answer = .ok none) ∧
      (¬ Closed ws i →
        ((s.within ws).next i).answer =
          (s.next ((Window.meetAll ws).startAfter i)).answer.map (Window.meetAll ws).keep) := by
  induction ws using List.reverseRecOn generalizing i with
  | nil =>
      have hkeep : (Window.meetAll []).keep = id := by
        funext a
        cases a <;> rfl
      refine ⟨fun hclosed => absurd hclosed (by simp [Closed]), fun _ => ?_⟩
      have hstart : (Window.meetAll []).startAfter i = i := Window.startAfter_of_opens_eq_none rfl
      rw [hkeep, hstart, Except.map_id]
      rfl
  | append_singleton ws w ih =>
      obtain ⟨hclosed, hopen⟩ := ih (w.startAfter i)
      rw [within_append_one, next_bounded_of_steady (steady.within ws), closed_append_one_iff,
        Window.meetAll_append_one]
      cases hover : w.isOver i with
      | true => simp
      | false =>
          simp only [Bool.false_eq_true, if_false, false_or]
          constructor
          · intro h
            rw [hclosed h]
            rfl
          · intro h
            have hkeep : ((Window.meetAll ws).meet w).keep = w.keep ∘ (Window.meetAll ws).keep :=
              funext (Window.keep_meet _ w)
            rw [hopen h, Window.startAfter_meet, hkeep]
            cases (s.next ((Window.meetAll ws).startAfter (w.startAfter i))).answer <;> rfl

/-- The common part of the windows is closed to the schedule, but only the windows one by one see
that before the schedule is asked. -/
structure Shielded
    (s : Schedule)
    (ws : List Window)
    (i : Instant) :
    Prop where
  running : ∀ w ∈ ws, w.isOver i = false
  missed : ¬ ws.Pairwise fun inner outer => ¬ inner.Misses outer
  crashes : ∃ x, (s.next ((Window.meetAll ws).startAfter i)).answer = .error x

/-- If one window misses another one, their common part keeps nothing of what a schedule that
goes forwards answers there; so only a crash shows. -/
theorem map_keep_of_misses
    {v w : Window}
    (forwards : ∀ i r, (s.next i).answer = .ok (some r) → i < r)
    (hv : v ∈ ws)
    (hw : w ∈ ws)
    (h : v.Misses w) :
    .ok none = (s.next ((Window.meetAll ws).startAfter i)).answer.map (Window.meetAll ws).keep ↔
      ¬ ∃ x, (s.next ((Window.meetAll ws).startAfter i)).answer = .error x := by
  have hend := Window.isOver_startAfter_of_misses (i := i) hv hw h
  cases hanswer : (s.next ((Window.meetAll ws).startAfter i)).answer with
  | error x => simp [Except.map]
  | ok a =>
      have hnone : (Window.meetAll ws).keep a = none := by
        cases a with
        | none => rfl
        | some r => exact Window.keep_of_isOver hend (le_of_lt (forwards _ r hanswer))
      simp [Except.map, hnone]

/-- Windows around a schedule that goes forwards act as their common part unless the schedule is
shielded. -/
theorem within_eq_meetAll_iff
    (steady : s.Steady)
    (forwards : ∀ i r, (s.next i).answer = .ok (some r) → i < r)
    (ws : List Window)
    (i : Instant) :
    ((s.within ws).next i).answer = ((bounded (Window.meetAll ws) s).next i).answer ↔
      ¬ s.Shielded ws i := by
  obtain ⟨hclosed, hopen⟩ := answer_within steady ws i
  rw [next_bounded_of_steady steady]
  cases hover : (Window.meetAll ws).isOver i with
  | true =>
      have hsome := (Window.isOver_meetAll_iff ws i).1 hover
      rw [hclosed (Or.inl hsome), if_pos rfl, eq_self, true_iff]
      rintro ⟨running, -, -⟩
      obtain ⟨w, hw, hwover⟩ := hsome
      simp [running w hw] at hwover
  | false =>
      have running : ∀ w ∈ ws, w.isOver i = false := by
        intro w hw
        rw [← Bool.not_eq_true] at hover ⊢
        exact fun hwover => hover ((Window.isOver_meetAll_iff ws i).2 ⟨w, hw, hwover⟩)
      rw [if_neg (by decide)]
      by_cases hpairs : ws.Pairwise fun inner outer => ¬ inner.Misses outer
      · have hnot : ¬ Closed ws i := by
          rintro (⟨w, hw, hwover⟩ | hmissed)
          · simp [running w hw] at hwover
          · exact hmissed hpairs
        rw [hopen hnot, eq_self, true_iff]
        exact fun hshielded => hshielded.missed hpairs
      · obtain ⟨v, hv, w, hw, hmisses⟩ : ∃ v ∈ ws, ∃ w ∈ ws, v.Misses w := by
          by_contra hnone
          push Not at hnone
          exact hpairs (List.pairwise_of_forall_mem_list hnone)
        rw [hclosed (Or.inr hpairs), map_keep_of_misses forwards hv hw hmisses, not_iff_not]
        exact ⟨fun crashes => ⟨running, hpairs, crashes⟩, Shielded.crashes⟩

end Schedule

/-- The clock of the pattern has no reading for the start of the common part, and none of the
windows is over yet, but one of them ends before the begin of one further out. -/
structure Pattern.Shielded
    (p : Pattern)
    (ws : List Window)
    (i : Instant) :
    Prop where
  unread : p.location.reading? ((Window.meetAll ws).startAfter i) = none
  running : ∀ w ∈ ws, w.isOver i = false
  missed : ¬ ws.Pairwise fun inner outer => ¬ inner.Misses outer

theorem Pattern.shielded_iff
    (p : Pattern)
    (ws : List Window)
    (i : Instant) :
    (Schedule.expression (.pattern p)).Shielded ws i ↔ p.Shielded ws i := by
  have hcrash : (∃ x, ((Schedule.expression (.pattern p)).next
      ((Window.meetAll ws).startAfter i)).answer = .error x) ↔
      p.location.reading? ((Window.meetAll ws).startAfter i) = none := by
    simp only [Schedule.next, Schedule.ask, Schedule.askExpression, Expression.next, Pattern.next]
    cases p.location.reading? ((Window.meetAll ws).startAfter i) <;> simp
  constructor
  · exact fun h => ⟨hcrash.1 h.crashes, h.running, h.missed⟩
  · exact fun h => ⟨h.running, h.missed, hcrash.2 h.unread⟩

/-- **Nested windows over a pattern act as their common part**, which holds the instants that lie
in all of them.  The next activation is the same, and does not depend on the order of the windows,
unless the pattern is shielded; then the nested windows answer that there is none and their common
part crashes.  The same holds if the pattern in the first window is given as a text that is read
as the pattern. -/
theorem nested_windows_iff
    (p : Pattern)
    (ws : List Window)
    (prev : Instant) :
    let s := Schedule.expression (.pattern p)
    (((s.within ws).next prev).answer =
        ((Schedule.bounded (Window.meetAll ws) s).next prev).answer ↔ ¬ p.Shielded ws prev) ∧
      (∀ i, (Window.meetAll ws).contains i = true ↔ ∀ w ∈ ws, w.contains i = true) ∧
      (∀ (t : CronText) (ws' : List Window),
        t.Reads (.pattern p) →
        ws = t.window :: ws' →
          (((Schedule.cron t).within ws').next prev).answer =
            ((s.within ws).next prev).answer) ∧
      ∀ ws' : List Window,
        ws'.Perm ws →
          Window.meetAll ws' = Window.meetAll ws ∧
            (p.location.reading? ((Window.meetAll ws).startAfter prev) ≠ none →
              ((s.within ws').next prev).answer = ((s.within ws).next prev).answer) := by
  intro s
  have hcommon : ∀ vs : List Window, ((s.within vs).next prev).answer =
      ((Schedule.bounded (Window.meetAll vs) s).next prev).answer ↔ ¬ p.Shielded vs prev := by
    intro vs
    rw [← Pattern.shielded_iff]
    refine Schedule.within_eq_meetAll_iff (Schedule.steady_pattern p) ?_ vs prev
    intro i r hr
    exact (Schedule.admits_of_askExpression (e := .pattern p) (q := .next) hr).1
  refine ⟨hcommon ws, Window.contains_meetAll_iff ws, ?_, ?_⟩
  · rintro t ws' reads rfl
    exact (Schedule.agrees_cron reads).within ws' .next prev
  · intro ws' hperm
    have hmeet := Window.meetAll_perm hperm
    refine ⟨hmeet, fun hread => ?_⟩
    have hws := (hcommon ws).2 fun hshielded => hread hshielded.unread
    have hws' := (hcommon ws').2 fun hshielded => hread (hmeet ▸ hshielded.unread)
    rw [hws, hws', hmeet]

/-- Every minute in Tokyo. -/
def everyMinuteInTokyo : Pattern :=
  ⟨Mask.single 0, Field.unrestricted Bounds.minutes, Field.unrestricted Bounds.hours,
    Field.unrestricted Bounds.daysOfMonth, Field.unrestricted Bounds.months,
    Field.unrestricted Bounds.daysOfWeek, .zone Zone.tokyo⟩

/-- The windows from the beginning of 1970 on and up to an hour later. -/
def firstHour : List Window :=
  [{ opens := some .epoch }, { closes := some ⟨3600 * 1000000000, by decide⟩ }]

/-- Every minute as a text, from the beginning of 1970 on. -/
def everyMinuteText : CronText :=
  ((CronText.ofText "* * * * *").withParser (Parser.standard.withLocation (.zone Zone.tokyo))).withWindow
    { opens := some .epoch }

theorem nested_windows_iff_firstHour :
    let s := Schedule.expression (.pattern everyMinuteInTokyo)
    let prev : Instant := ⟨-1000000000, by decide⟩
    everyMinuteText.Reads (.pattern everyMinuteInTokyo) ∧
      firstHour.reverse.Perm firstHour ∧
      ((s.within firstHour).next prev).answer =
        ((Schedule.bounded ⟨some .epoch, some ⟨3600 * 1000000000, by decide⟩⟩ s).next
          prev).answer ∧
      ((s.within firstHour.reverse).next prev).answer = ((s.within firstHour).next prev).answer ∧
      (((Schedule.cron everyMinuteText).within firstHour.tail).next prev).answer =
        ((s.within firstHour).next prev).answer := by
  intro s prev
  obtain ⟨hcommon, -, htext, horder⟩ := nested_windows_iff everyMinuteInTokyo firstHour prev
  have reads : everyMinuteText.Reads (.pattern everyMinuteInTokyo) := Or.inr ⟨rfl, rfl⟩
  have hperm : firstHour.reverse.Perm firstHour := List.reverse_perm _
  have hread : everyMinuteInTokyo.location.reading?
      ((Window.meetAll firstHour).startAfter prev) ≠ none := by decide
  exact ⟨reads, hperm, hcommon.2 fun hshielded => hread hshielded.unread,
    (horder _ hperm).2 hread, htext _ _ reads rfl⟩

/-- The windows up to the beginning of 1970 and from the last second of the calendar on. -/
def farApart : List Window :=
  [{ closes := some .epoch }, { opens := some ⟨8210266876799 * 1000000000, by decide⟩ }]

/-- Nested, the windows answer that there is nothing; their common part crashes. -/
theorem farApart_crashes :
    let s := Schedule.expression (.pattern everyMinuteInTokyo)
    let prev : Instant := ⟨-1000000000, by decide⟩
    ((s.within farApart).next prev).answer = .ok none ∧
      ((Schedule.bounded (Window.meetAll farApart) s).next prev).answer = .error .calendar ∧
      ((s.within farApart).next prev).answer ≠
        ((Schedule.bounded (Window.meetAll farApart) s).next prev).answer := by
  intro s prev
  have hnested : ((s.within farApart).next prev).answer = .ok none := rfl
  have hcommon : ((Schedule.bounded (Window.meetAll farApart) s).next prev).answer =
      .error .calendar := rfl
  refine ⟨hnested, hcommon, ?_⟩
  rw [hnested, hcommon]
  simp

end Timetable
