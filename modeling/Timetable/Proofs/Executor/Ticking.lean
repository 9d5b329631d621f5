import Timetable.Proofs.Executor.CallingOff

/-!
# The pace of a repetition

After the first attempt a layer that repeats starts a ticker, whose first tick comes an interval
later.  Whoever pauses between two attempts waits for the tick that is pending, and then the next
tick is an interval after the one before, or an interval after the attempt has begun if that was
more than five milliseconds late.  So attempts of any length never bunch: two that follow one
another begin an interval apart, but for those five milliseconds.

All this is said on a clock that goes on only while the run cannot move.  It shows whole
milliseconds, so a moment in between is met at the next one.

Main results:

* each tick is an interval after the start it follows, but for five milliseconds
  (le_nextTick_add);
* on a visit each attempt but the first one begins at the later of the end of the one before and
  the pending tick (Rhythm.step, Arrival.rhythm);
* the law of the pace (attempts_paced).
-/

namespace Timetable

namespace Run

variable {run : Run} {d : Nat}

/-- A run outside the layer waits for no tick of it. -/
theorem due?_of_out (out : run.stack.length ≤ d) : run.due? d = none := by
  rw [due?, List.getElem?_eq_none (by rwa [List.length_reverse])]
  rfl

theorem length_le_of_away (away : run.station d = .away) : run.stack.length ≤ d := by
  unfold station at away
  split at away
  · cases away
  · split at away
    · cases hcontrol : run.control <;> rw [hcontrol] at away <;> cases away
    · omega

end Run

namespace Executor

/-- The first moment that the clock shows from some moment on. -/
def onClock (nanos : Nat) : Nat :=
  ceilMillis nanos * nanosPerMilli

theorem le_onClock (nanos : Nat) : nanos ≤ onClock nanos := by
  simp only [onClock, ceilMillis, nanosPerMilli]
  omega

/-- What the clock shows is not before a moment exactly if it is not before the next whole
millisecond. -/
theorem onClock_le_iff
    {nanos now : Nat} :
    onClock nanos ≤ now * nanosPerMilli ↔ nanos ≤ now * nanosPerMilli := by
  simp only [onClock, ceilMillis, nanosPerMilli]
  omega

/-- The clock shows a moment of whole milliseconds. -/
theorem onClock_of_whole
    {nanos : Nat}
    (whole : nanosPerMilli ∣ nanos) :
    onClock nanos = nanos := by
  obtain ⟨n, rfl⟩ := whole
  simp only [onClock, ceilMillis, nanosPerMilli]
  omega

/-- The tick that is pending after such repetitions, given the end of the first attempt. -/
def pendingTick
    (interval firstEnd : Nat)
    (repetitions : List Nat) :
    Nat :=
  repetitions.foldl (fun tick start => nextTick start tick interval) (firstEnd + interval)

theorem pendingTick_concat
    (interval firstEnd : Nat)
    (repetitions : List Nat)
    (start : Nat) :
    pendingTick interval firstEnd (repetitions ++ [start]) =
      nextTick start (pendingTick interval firstEnd repetitions) interval := by
  rw [pendingTick, List.foldl_concat, pendingTick]

/-- **A tick is an interval after the start that it follows, but for five milliseconds.** -/
theorem le_nextTick_add (start tick interval : Nat) :
    start + interval ≤ nextTick start tick interval + 5 * nanosPerMilli := by
  unfold nextTick
  split <;> omega

/-- Ticks come at whole milliseconds if the interval has none but these. -/
theorem whole_pendingTick
    {interval firstEnd : Nat}
    {repetitions : List Nat}
    (whole : nanosPerMilli ∣ interval)
    (ended : nanosPerMilli ∣ firstEnd)
    (begun : ∀ start ∈ repetitions, nanosPerMilli ∣ start) :
    nanosPerMilli ∣ pendingTick interval firstEnd repetitions := by
  induction repetitions using List.reverseRecOn with
  | nil => exact Nat.dvd_add ended whole
  | append_singleton repetitions start ih =>
      have hstart : nanosPerMilli ∣ start := begun start List.mem_concat_self
      have htick := ih fun s hs => begun s (List.mem_append_left _ hs)
      rw [pendingTick_concat, nextTick]
      split
      · exact Nat.dvd_add hstart whole
      · exact Nat.dvd_add htick whole

/-- Each attempt but the first one has begun at the later of the end of the one before and the
tick that was pending then. -/
def Paced
    (interval : Nat)
    (starts ends : List Nat) :
    Prop :=
  ∀ k start, starts[k + 1]? = some start → ∃ firstEnd lastEnd,
    ends[0]? = some firstEnd ∧ ends[k]? = some lastEnd ∧
    start = onClock (max lastEnd (pendingTick interval firstEnd ((starts.drop 1).take k)))

namespace Paced

variable {interval : Nat} {starts ends : List Nat}

/-- The first attempt is in no pace yet. -/
theorem single (start : Nat) : Paced interval [start] ends := by
  intro k start' h
  simp at h

theorem ended
    (paced : Paced interval starts ends)
    (last : Nat) :
    Paced interval starts (ends ++ [last]) := by
  intro k start h
  obtain ⟨firstEnd, lastEnd, hfirst, hlast, hstart⟩ := paced k start h
  have hmore : ∀ {i n : Nat}, ends[i]? = some n → (ends ++ [last])[i]? = some n := by
    intro i n hn
    rwa [List.getElem?_append_left (List.getElem?_eq_some_iff.1 hn).1]
  exact ⟨firstEnd, lastEnd, hmore hfirst, hmore hlast, hstart⟩

/-- A repetition that begins at the pending tick keeps the pace. -/
theorem begun
    (paced : Paced interval starts ends)
    (complete : starts.length = ends.length)
    {firstEnd lastEnd : Nat}
    (first : ends[0]? = some firstEnd)
    (last : ends.getLast? = some lastEnd) :
    Paced interval (starts ++ [onClock (max lastEnd (pendingTick interval firstEnd
      (starts.drop 1)))]) ends := by
  have hpositive : 0 < ends.length := (List.getElem?_eq_some_iff.1 first).1
  intro k start h
  have hlt := (List.getElem?_eq_some_iff.1 h).1
  rw [List.length_append, List.length_singleton] at hlt
  have htake : ((starts ++ [onClock (max lastEnd (pendingTick interval firstEnd
      (starts.drop 1)))]).drop 1).take k = (starts.drop 1).take k := by
    rw [List.drop_append_of_le_length (by omega), List.take_append_of_le_length]
    rw [List.length_drop]
    omega
  rw [htake]
  rcases Nat.lt_or_ge (k + 1) starts.length with hk | hk
  · rw [List.getElem?_append_left hk] at h
    exact paced k start h
  · obtain hk : k + 1 = starts.length := by omega
    rw [hk, List.getElem?_concat_length] at h
    obtain rfl := Option.some.inj h
    have hwhole : (starts.drop 1).take k = starts.drop 1 := by
      refine List.take_of_length_le ?_
      rw [List.length_drop]
      omega
    have hlast : ends[k]? = some lastEnd := by
      rw [← last, List.getLast?_eq_getElem?, ← complete, ← hk, Nat.add_sub_cancel]
    exact ⟨firstEnd, lastEnd, first, hlast, by rw [hwhole]⟩

/-- **Attempts in pace begin an interval apart, but for five milliseconds.** -/
theorem apart
    (paced : Paced interval starts ends)
    (first : ∀ start firstEnd, starts[0]? = some start → ends[0]? = some firstEnd →
      start ≤ firstEnd)
    {k start next : Nat}
    (one : starts[k]? = some start)
    (other : starts[k + 1]? = some next) :
    start + interval ≤ next + 5 * nanosPerMilli := by
  obtain ⟨firstEnd, lastEnd, hfirst, -, rfl⟩ := paced k next other
  set tick := pendingTick interval firstEnd ((starts.drop 1).take k) with htick
  have hlate : tick ≤ onClock (max lastEnd tick) :=
    (le_max_right lastEnd tick).trans (le_onClock _)
  cases k with
  | zero =>
      have hbegun := first start firstEnd one hfirst
      have hpending : tick = firstEnd + interval := rfl
      omega
  | succ k =>
      have htake : (starts.drop 1).take (k + 1) = (starts.drop 1).take k ++ [start] := by
        have hdrop : (starts.drop 1)[k]? = some start := by
          rw [List.getElem?_drop, Nat.add_comm]
          exact one
        rw [List.take_add_one, hdrop]
        rfl
      rw [htake, pendingTick_concat] at htick
      have hnext := le_nextTick_add start
        (pendingTick interval firstEnd ((starts.drop 1).take k)) interval
      rw [← htick] at hnext
      omega

end Paced

variable {e e' : Executor} {r : RunId} {run run' : Run} {job : Job} {d : Nat}

/-- The moments at which attempts begin on a path. -/
def startTimes
    (r : RunId)
    (d : Nat)
    (l : List (Executor × Executor)) :
    List Nat :=
  (l.filter (begins r d)).map fun s => s.2.nanos

/-- The moments at which attempts end on a path. -/
def endTimes
    (r : RunId)
    (d : Nat)
    (l : List (Executor × Executor)) :
    List Nat :=
  (l.filter fun s => (ended? r d s).isSome).map fun s => s.2.nanos

theorem length_startTimes (l : List (Executor × Executor)) :
    (startTimes r d l).length = attempts r d l := by
  rw [startTimes, List.length_map, attempts, List.countP_eq_length_filter]

theorem length_endTimes (l : List (Executor × Executor)) :
    (endTimes r d l).length = (results r d l).length := by
  rw [endTimes, List.length_map, results, List.length_filterMap_eq_countP,
    List.countP_eq_length_filter]

/-- The clock shows the moments at which attempts begin. -/
theorem whole_of_mem_startTimes
    {l : List (Executor × Executor)}
    {start : Nat}
    (h : start ∈ startTimes r d l) :
    nanosPerMilli ∣ start := by
  obtain ⟨s, -, rfl⟩ := List.mem_map.1 h
  exact Nat.dvd_mul_left _ _

theorem whole_of_mem_endTimes
    {l : List (Executor × Executor)}
    {last : Nat}
    (h : last ∈ endTimes r d l) :
    nanosPerMilli ∣ last := by
  obtain ⟨s, -, rfl⟩ := List.mem_map.1 h
  exact Nat.dvd_mul_left _ _

/-- A step on a clock that goes on only while a run cannot move, and no further. -/
def OnTime
    (r : RunId)
    (e e' : Executor) :
    Prop :=
  e.now ≤ e'.now ∧ ∀ t < e'.now, e.now ≤ t → (e.setClock t).canMove (.run r) = false

instance : Decidable (OnTime r e e') :=
  inferInstanceAs
    (Decidable (_ ∧ ∀ t < e'.now, e.now ≤ t → (e.setClock t).canMove (.run r) = false))

section Clock

variable (onTime : OnTime r e e')

include onTime

theorem OnTime.nanos_le : e.nanos ≤ e'.nanos :=
  Nat.mul_le_mul_right _ onTime.1

/-- The clock stands still while the run can move. -/
theorem OnTime.nanos_of_move (move : e.moves (.run r) ≠ []) : e'.nanos = e.nanos := by
  have hclock : e.setClock e.now = e := rfl
  have hcan : e.canMove (.run r) = true := by simpa [canMove] using move
  by_contra hne
  have hlt : e.now < e'.now := lt_of_le_of_ne onTime.1 fun h => hne (by rw [nanos, nanos, h])
  have hcannot := onTime.2 e.now hlt le_rfl
  rw [hclock, hcan] at hcannot
  cases hcannot

end Clock

section Steps

variable {l : List (Executor × Executor)} {s : Executor × Executor}

theorem startTimes_of_begins (h : begins r d s = true) :
    startTimes r d (l ++ [s]) = startTimes r d l ++ [s.2.nanos] := by
  simp [startTimes, h]

theorem startTimes_of_not_begins (h : begins r d s = false) :
    startTimes r d (l ++ [s]) = startTimes r d l := by
  simp [startTimes, h]

theorem endTimes_of_ended
    {x : Result}
    (h : ended? r d s = some x) :
    endTimes r d (l ++ [s]) = endTimes r d l ++ [s.2.nanos] := by
  simp [endTimes, h]

theorem endTimes_of_not_ended (h : ended? r d s = none) :
    endTimes r d (l ++ [s]) = endTimes r d l := by
  simp [endTimes, h]

/-- No attempt begins in a step after which none is in progress. -/
theorem begins_of_not_trying (h : s.2.station r d ≠ .trying) : begins r d s = false := by
  simp [begins, h]

/-- No attempt ends in a step before which none is in progress. -/
theorem ended?_of_not_trying (h : s.1.station r d ≠ .trying) : ended? r d s = none :=
  if_neg h

/-- The pace of a visit after so many attempts. -/
structure Rhythm
    (interval : Nat)
    (r : RunId)
    (d : Nat)
    (starts ends : List Nat)
    (e : Executor) :
    Prop where
  paced : Paced interval starts ends
  first : ∀ start, starts[0]? = some start →
    start ≤ e.nanos ∧ ∀ firstEnd, ends[0]? = some firstEnd → start ≤ firstEnd
  /-- The last attempt has ended just now. -/
  handing : ∀ x, e.station r d = .handing x → ends.getLast? = some e.nanos
  /-- The clock does not go beyond the moment at which the next attempt can begin. -/
  pausing : ∀ f, e.station r d = .pausing f → ∃ due lastEnd,
    e.due? r d = some due ∧ ends.getLast? = some lastEnd ∧ lastEnd ≤ e.nanos ∧
    e.nanos ≤ onClock (max lastEnd due)
  pending : ∀ due, e.due? r d = some due → ∃ firstEnd,
    ends[0]? = some firstEnd ∧ due = pendingTick interval firstEnd (starts.drop 1)

/-- The results of a visit are not more than its attempts. -/
theorem Stage.length_results_le
    {cancels overflows : Prop}
    {limit : Int}
    {ctx : Context}
    {below : List Frame}
    {t : Option TokenId}
    {n k : Nat}
    {xs : List Result}
    (stage : Stage cancels overflows limit ctx below t n xs k run) :
    xs.length ≤ n := by
  cases stage <;> simp

namespace Rhythm

variable {interval : Nat} {starts ends : List Nat}

/-- While the run stands still, its visit keeps the pace. -/
theorem still
    (rhythm : Rhythm interval r d starts ends e)
    (onTime : OnTime r e e')
    (entry : e.runs[r]? = some run)
    (entry' : e'.runs[r]? = some run)
    (hands : ∀ x, e.station r d = .handing x → e.moves (.run r) ≠ [])
    (waits : ∀ f due t, e.station r d = .pausing f → e.due? r d = some due →
      due ≤ (e.setClock t).nanos → (e.setClock t).canMove (.run r) = true) :
    Rhythm interval r d starts ends e' := by
  have hstation : e'.station r d = e.station r d := by
    rw [station_of_entry entry, station_of_entry entry']
  have hdue : e'.due? r d = e.due? r d := by rw [due?_of_entry entry, due?_of_entry entry']
  refine ⟨rhythm.paced, ?_, ?_, ?_, ?_⟩
  · intro start hstart
    obtain ⟨hbegun, hended⟩ := rhythm.first start hstart
    exact ⟨hbegun.trans onTime.nanos_le, hended⟩
  · intro x handing
    rw [hstation] at handing
    rw [onTime.nanos_of_move (hands x handing)]
    exact rhythm.handing x handing
  · intro f pausing
    rw [hstation] at pausing
    obtain ⟨due, lastEnd, hnext, hlast, hended, hclock⟩ := rhythm.pausing f pausing
    refine ⟨due, lastEnd, hdue.trans hnext, hlast, hended.trans onTime.nanos_le, ?_⟩
    rcases onTime.1.eq_or_lt with hsame | hlater
    · exact (congrArg (· * nanosPerMilli) hsame).symm.le.trans hclock
    · -- Just before the clock shows what it shows now, the tick has not come.
      have hearly : ¬due ≤ (e.setClock (e'.now - 1)).nanos := fun hcome => by
        have hcannot := onTime.2 (e'.now - 1) (by omega) (Nat.le_sub_one_of_lt hlater)
        rw [waits f due _ pausing hnext hcome] at hcannot
        cases hcannot
      have hmax : due ≤ max lastEnd due := le_max_right _ _
      have hpositive : 0 < e'.now := Nat.zero_lt_of_lt hlater
      simp only [nanos, setClock, onClock, ceilMillis, nanosPerMilli] at hearly ⊢
      omega
  · intro due hnext
    rw [hdue] at hnext
    exact rhythm.pending due hnext

/-- Nor does it lose the pace when it tries on or comes away. -/
theorem onward
    (rhythm : Rhythm interval r d starts ends e)
    (later : e.nanos ≤ e'.nanos)
    (tries : e'.station r d = .trying ∨ e'.station r d = .away)
    (same : ∀ due, e'.due? r d = some due → e.due? r d = some due) :
    Rhythm interval r d starts ends e' where
  paced := rhythm.paced
  first start hstart := (rhythm.first start hstart).imp_left fun h => h.trans later
  handing x handing := by rcases tries with h | h <;> rw [h] at handing <;> cases handing
  pausing f pausing := by rcases tries with h | h <;> rw [h] at pausing <;> cases pausing
  pending due hdue := rhythm.pending due (same due hdue)

/-- The first attempt begins. -/
theorem opening
    (trying : e'.station r d = .trying)
    (noTick : e'.due? r d = none) :
    Rhythm interval r d [e'.nanos] [] e' where
  paced := .single _
  first start hstart := ⟨(Option.some.inj hstart).symm.le, fun _ h => by cases h⟩
  handing x handing := by rw [trying] at handing; cases handing
  pausing f pausing := by rw [trying] at pausing; cases pausing
  pending due hdue := by rw [noTick] at hdue; cases hdue

/-- An attempt ends. -/
theorem ended
    (rhythm : Rhythm interval r d starts ends e)
    (clock : e'.nanos = e.nanos)
    {x : Result}
    (handing : e'.station r d = .handing x)
    (same : e'.due? r d = e.due? r d) :
    Rhythm interval r d starts (ends ++ [e'.nanos]) e' where
  paced := rhythm.paced.ended _
  first start hstart := by
    obtain ⟨hbegun, hended⟩ := rhythm.first start hstart
    rw [clock]
    refine ⟨hbegun, fun firstEnd hfirst => ?_⟩
    cases ends with
    | nil =>
        obtain rfl := Option.some.inj hfirst
        exact hbegun
    | cons n ends => exact hended firstEnd hfirst
  handing _ _ := List.getLast?_concat
  pausing f pausing := by rw [handing] at pausing; cases pausing
  pending due hdue := by
    obtain ⟨firstEnd, hfirst, hpending⟩ := rhythm.pending due (same.symm.trans hdue)
    refine ⟨firstEnd, ?_, hpending⟩
    rwa [List.getElem?_append_left (List.getElem?_eq_some_iff.1 hfirst).1]

/-- After an attempt the run pauses until the pending tick, which is an interval later if the
attempt was the first one. -/
theorem paused
    (rhythm : Rhythm interval r d starts ends e)
    (clock : e'.nanos = e.nanos)
    {x : Result}
    (handing : e.station r d = .handing x)
    {f : JobFailure}
    (pausing : e'.station r d = .pausing f)
    {due : Nat}
    (hdue : e'.due? r d = some due)
    (tick : e.due? r d = some due ∨
      due = e.nanos + interval ∧ starts.length = 1 ∧ ends.length = 1) :
    Rhythm interval r d starts ends e' where
  paced := rhythm.paced
  first start hstart := by
    rw [clock]
    exact rhythm.first start hstart
  handing _ handing' := by rw [pausing] at handing'; cases handing'
  pausing _ _ := by
    have hlast := rhythm.handing x handing
    exact ⟨due, e.nanos, hdue, hlast, clock.symm.le,
      clock.trans_le ((le_max_left e.nanos due).trans (le_onClock _))⟩
  pending due' hdue' := by
    obtain rfl : due = due' := Option.some.inj (hdue.symm.trans hdue')
    rcases tick with hsame | ⟨rfl, hstarts, hends⟩
    · exact rhythm.pending due hsame
    · have hlast := rhythm.handing x handing
      obtain ⟨n, rfl⟩ := List.length_eq_one_iff.1 hends
      obtain ⟨m, rfl⟩ := List.length_eq_one_iff.1 hstarts
      obtain rfl : n = e.nanos := by simpa using hlast
      exact ⟨e.nanos, rfl, by rw [List.drop_one, List.tail_cons, pendingTick, List.foldl_nil]⟩

/-- **The next attempt begins at the later of the end of the last one and the pending tick.** -/
theorem again
    (rhythm : Rhythm interval r d starts ends e)
    (clock : e'.nanos = e.nanos)
    (complete : starts.length = ends.length)
    {f : JobFailure}
    (pausing : e.station r d = .pausing f)
    {due : Nat}
    (hdue : e.due? r d = some due)
    (come : due ≤ e.nanos)
    (trying : e'.station r d = .trying)
    (next : e'.due? r d = some (nextTick e.nanos due interval)) :
    Rhythm interval r d (starts ++ [e'.nanos]) ends e' := by
  obtain ⟨due', lastEnd, hdue', hlast, hended, hclock⟩ := rhythm.pausing f pausing
  obtain rfl : due = due' := Option.some.inj (hdue.symm.trans hdue')
  obtain ⟨firstEnd, hfirst, hpending⟩ := rhythm.pending due hdue
  have hpositive : 0 < starts.length := by
    rw [complete]
    exact (List.getElem?_eq_some_iff.1 hfirst).1
  have hstart : e'.nanos = onClock (max lastEnd due) := by
    rw [clock]
    exact le_antisymm hclock (onClock_le_iff.2 (max_le hended come))
  refine ⟨?_, ?_, ?_, ?_, ?_⟩
  · rw [hstart, hpending]
    exact rhythm.paced.begun complete hfirst hlast
  · intro start h
    rw [List.getElem?_append_left hpositive] at h
    exact (rhythm.first start h).imp_left fun h => h.trans clock.symm.le
  · intro x handing
    rw [trying] at handing
    cases handing
  · intro g pausing'
    rw [trying] at pausing'
    cases pausing'
  · intro due' hdue'
    obtain rfl := Option.some.inj (next.symm.trans hdue')
    refine ⟨firstEnd, hfirst, ?_⟩
    rw [List.drop_append_of_le_length hpositive, pendingTick_concat, ← hpending, clock]

end Rhythm

section Visits

variable {cancels overflows : Prop} {limit : Int} {interval : Span} {signal : SignalId}
  {last : Option Outcome} {ctx : Context} {below : List Frame} {t : Option TokenId} {n k : Nat}
  {xs : List Result} {j : JobId} {key : String}

/-- A run that pauses can move when its tick has come. -/
theorem Stage.canMove_of_due
    (stage : Stage cancels overflows limit ctx below t n xs k run)
    (entry : e.runs[r]? = some run)
    {f : JobFailure}
    (pausing : run.station below.length = .pausing f)
    {due : Nat}
    (hdue : e.due? r below.length = some due)
    (come : due ≤ e.nanos) :
    e.canMove (.run r) = true := by
  obtain ⟨fs, shutdown, due', hstack, hcontrol, -⟩ := stage.of_pausing pausing
  obtain rfl : due' = due := Option.some.inj ((due?_of_top entry hstack).symm.trans hdue)
  have hmove := (mem_moves_pausing_iff _ entry hcontrol hstack).2 (Or.inl ⟨come, rfl⟩)
  simpa [canMove] using List.ne_nil_of_mem hmove

/-- The tick for which a run waits stays while an attempt goes on. -/
theorem Walk.keeps_due
    {job' : Job}
    {signs : List Sign}
    {f : Frame}
    {above : List Frame}
    (walk : e.Walk r run job run' job' signs)
    (stack : run.stack = above ++ f :: below)
    (inside : above ≠ [] ∨ run.control.station = .trying) :
    run'.due? below.length = run.due? below.length := by
  obtain ⟨above', hstack, -⟩ := walk.keeps_frame stack inside
  rw [Run.due?, Run.due?, Run.frame_of_stack above' hstack rfl, Run.frame_of_stack above stack rfl]

/-- A run with one more frame waits for the tick of that frame. -/
theorem due?_resume
    (entry : e.runs[r]? = some run)
    (f : Frame)
    (below : List Frame)
    (c : Control) :
    (e.resume r run (f :: below) c).due? r below.length = f.due? := by
  have hpresent : r < e.runs.length := (List.getElem?_eq_some_iff.1 entry).1
  refine (due?_of_entry (List.getElem?_set_self hpresent) _).trans ?_
  rw [Run.due?_of_top rfl]

/-- A repetition fixes the next tick. -/
theorem due?_repeatAttempt
    {shutdown : TokenId}
    {repeated due : Nat}
    {f : JobFailure}
    (entry : e.runs[r]? = some run)
    (decorated : e.jobs[run.job]? = some job)
    (layer : job.layers[below.length]? = some (.retry signal limit interval last)) :
    (e.repeatAttempt r run below shutdown ctx repeated due f).due? r below.length =
      some (nextTick e.nanos due interval.nanos) := by
  simp only [repeatAttempt, retrySettings_of_layer decorated layer]
  exact due?_resume entry _ below _

/-- A run that is away waits for no tick. -/
theorem due?_of_away (away : e.station r d = .away) : e.due? r d = none := by
  unfold station at away
  unfold due?
  cases h : e.runs[r]? with
  | none => rfl
  | some run =>
      rw [h, Option.elim_some] at away
      rw [Option.bind_some, Run.due?_of_out (Run.length_le_of_away away)]

/-- After an attempt a run pauses until the tick that was pending, or until one an interval later if
the attempt was the first one. -/
theorem Stage.tick_of_pause
    (stage : Stage cancels overflows limit ctx below t n xs k run)
    (entry : e.runs[r]? = some run)
    (decorated : e.jobs[run.job]? = some job)
    (layer : job.layers[below.length]? = some (.retry signal limit interval last))
    {x : Result}
    (handing : run.station below.length = .handing x)
    (move : e' ∈ e.moves (.run r))
    {f : JobFailure}
    (pausing : e'.station r below.length = .pausing f) :
    ∃ due, e'.due? r below.length = some due ∧
      (e.due? r below.length = some due ∨
        due = e.nanos + interval.nanos ∧ n = 1 ∧ xs.length = 1) := by
  obtain ⟨fs, shutdown, due, hstack, hcontrol, hfirst, -, rfl, rfl⟩ := stage.of_handing handing
  have hdue : e.due? r below.length = due := due?_of_top entry hstack
  cases hended : run.control with
  | unwinding p =>
      rw [Executor.moves_bursting entry hended hstack] at move
      obtain rfl := List.mem_singleton.1 move
      rw [station_resume (List.getElem?_eq_some_iff.1 entry).1,
        Run.station_of_left rfl (by simp)] at pausing
      cases pausing
  | leaving o =>
      rw [Executor.moves_handing entry hended hstack] at move
      obtain rfl := List.mem_singleton.1 move
      have hnext := due?_attemptEnded entry decorated layer pausing
      rw [station_attemptEnded entry decorated layer] at pausing
      cases hor : due.or (firstTick? e.nanos interval.nanos) with
      | none =>
          rw [hor] at pausing
          cases pausing
      | some next =>
          refine ⟨next, hnext.trans hor, ?_⟩
          cases due with
          | some u => exact Or.inl (hdue.trans hor)
          | none =>
              obtain rfl := hfirst.1 rfl
              rw [Option.none_or] at hor
              obtain ⟨-, htick⟩ := Option.ite_none_right_eq_some.1 hor
              exact Or.inr ⟨(Option.some.inj htick).symm, rfl, rfl⟩
  | _ =>
      rw [hended] at hcontrol
      cases hcontrol

/-- After a failed attempt a run pauses if repetitions are left, unless the clock does not get an
interval further. -/
theorem Stage.moves_failed
    (stage : Stage cancels overflows limit ctx below t n xs k run)
    (entry : e.runs[r]? = some run)
    (decorated : e.jobs[run.job]? = some job)
    (layer : job.layers[below.length]? = some (.retry signal limit interval last))
    {f : JobFailure}
    (handing : run.station below.length = .handing (.outcome (.err f)))
    (more : 0 ≤ limit → (n : Int) ≤ limit)
    (further : ¬e.RunsOut r below.length interval) :
    ∃ e', e.moves (.run r) = [e'] ∧ e'.station r below.length = .pausing f := by
  let s : Nat → Result := fun i => (xs[i - 1]?).getD (.outcome .ok)
  have htold : ∀ (i : Nat) (x : Result), xs[i]? = some x → s (i + 1) = x := by
    intro i x hx
    simp [s, hx]
  obtain ⟨e', hmoves, -, hpausing⟩ := stage.moves_handing htold entry decorated layer handing
  have hnot : ¬Enough limit s n := by
    obtain ⟨fs, _, _, -, -, -, -, rfl, rfl⟩ := stage.of_handing handing
    rintro ⟨-, hgood | ⟨hlimit, hspent⟩⟩
    · rw [told_last htold] at hgood
      cases hgood
    · have := more hlimit
      omega
  obtain ⟨g, hg, hnext⟩ := hpausing further hnot
  cases hg
  exact ⟨e', hmoves, hnext⟩

/-- Where no attempt begins or ends, the same is seen. -/
theorem Rhythm.unseen
    (rhythm : Rhythm interval.nanos r below.length (startTimes r below.length l)
      (endTimes r below.length l) e')
    (idle : e.station r below.length ≠ .trying)
    (idle' : e'.station r below.length ≠ .trying) :
    Rhythm interval.nanos r below.length (startTimes r below.length (l ++ [(e, e')]))
      (endTimes r below.length (l ++ [(e, e')])) e' := by
  rwa [startTimes_of_not_begins (begins_of_not_trying idle'),
    endTimes_of_not_ended (ended?_of_not_trying idle)]

/-- A run that does nothing keeps the pace, if the clock goes on only while it cannot move. -/
theorem Rhythm.stays
    (rhythm : Rhythm interval.nanos r below.length (startTimes r below.length l)
      (endTimes r below.length l) e)
    (stands : Standing cancels overflows limit interval ctx below r j key l e t run job)
    (onTime : OnTime r e e')
    (still : e'.runs[r]? = some run) :
    Rhythm interval.nanos r below.length (startTimes r below.length (l ++ [(e, e')]))
      (endTimes r below.length (l ++ [(e, e')])) e' := by
  obtain ⟨signal, last, hlayer⟩ := stands.layer
  have hstation := station_of_entry stands.entry below.length
  have hsame : e'.station r below.length = e.station r below.length := by
    rw [hstation, station_of_entry still]
  have hbegins : begins r below.length (e, e') = false := by simp [begins, hsame]
  have hended : ended? r below.length (e, e') = none := by
    unfold ended?
    by_cases htrying : e.station r below.length = .trying <;>
      simp [hsame, htrying, Station.result?]
  rw [startTimes_of_not_begins hbegins, endTimes_of_not_ended hended]
  refine rhythm.still onTime stands.entry still ?_ ?_
  · intro x handing
    obtain ⟨e₁, hmoves, -⟩ := stands.stage.moves_handed stands.entry stands.decorated hlayer
      (hstation.symm.trans handing)
    rw [hmoves]
    exact List.cons_ne_nil _ _
  · intro f due t pausing hdue come
    exact stands.stage.canMove_of_due (e := e.setClock t) stands.entry
      (hstation.symm.trans pausing) hdue come

/-- The first attempt begins. -/
theorem Rhythm.arrives
    (stands : Standing cancels overflows limit interval ctx below r j key l e t run job)
    (arriving : e.station r below.length = .arriving)
    (move : e' ∈ e.moves (.run r)) :
    Rhythm interval.nanos r below.length (startTimes r below.length (l ++ [(e, e')]))
      (endTimes r below.length (l ++ [(e, e')])) e' := by
  obtain ⟨signal, last, hlayer⟩ := stands.layer
  have hstation := (station_of_entry stands.entry below.length).symm.trans arriving
  have hstarts := length_startTimes (r := r) (d := below.length) l
  have hends := length_endTimes (r := r) (d := below.length) l
  obtain ⟨hdepth, ctx', hcontrol⟩ := Run.of_station_arriving hstation
  have hnone := stands.stage.of_arriving hstation
  have hresults := stands.stage.length_results_le
  rw [moves_arriving stands.entry stands.decorated hcontrol (hdepth ▸ hlayer)] at move
  obtain rfl := List.mem_singleton.1 move
  have htrying : (e.push r run (.retry (e.signalToken signal) ctx' 0 none)
      (.entering ctx')).station r below.length = .trying :=
    (station_resume (List.getElem?_eq_some_iff.1 stands.entry).1 run _ _ _).trans
      (Run.station_of_top rfl hdepth)
  have hbegins : begins r below.length (e, e.push r run (.retry (e.signalToken signal) ctx' 0
      none) (.entering ctx')) = true := by
    simp [begins, arriving, htrying]
  have hempty : startTimes r below.length l = [] ∧ endTimes r below.length l = [] := by
    constructor <;> exact List.eq_nil_of_length_eq_zero (by omega)
  rw [startTimes_of_begins hbegins,
    endTimes_of_not_ended (ended?_of_not_trying (by simp [arriving])), hempty.1, hempty.2]
  exact .opening htrying (hdepth ▸ due?_resume stands.entry _ run.stack _)

/-- While it tries, the run goes on or hands over. -/
theorem Rhythm.tries
    (rhythm : Rhythm interval.nanos r below.length (startTimes r below.length l)
      (endTimes r below.length l) e)
    (stands : Standing cancels overflows limit interval ctx below r j key l e t run job)
    (trying : e.station r below.length = .trying)
    (move : e' ∈ e.moves (.run r)) :
    Rhythm interval.nanos r below.length (startTimes r below.length (l ++ [(e, e')]))
      (endTimes r below.length (l ++ [(e, e')])) e' := by
  have hclock : e'.nanos = e.nanos := by rw [nanos, nanos, (timeless_of_mem_runMoves move).now]
  obtain ⟨above, f, hstack, hinside⟩ :=
    stands.stage.of_trying ((station_of_entry stands.entry below.length).symm.trans trying)
  obtain ⟨run', job', signs, hwalked⟩ :=
    walked_of_mem_runMoves stands.entry stands.decorated move
  have hentry := hwalked.entry stands.entry
  have hstation' := station_of_entry hentry below.length
  have hdue : e'.due? r below.length = e.due? r below.length := by
    rw [due?_of_entry hentry, due?_of_entry stands.entry, hwalked.walk.keeps_due hstack hinside]
  have hbegins : begins r below.length (e, e') = false := by simp [begins, trying]
  rw [startTimes_of_not_begins hbegins]
  rcases hwalked.walk.tries hstack hinside with
    ⟨above', hstack', hinside'⟩ | ⟨hstack', x, hx⟩
  · have htrying := hstation'.trans (Run.station_of_inside hstack' hinside')
    have hended : ended? r below.length (e, e') = none := by
      simp [ended?, htrying, Station.result?]
    rw [endTimes_of_not_ended hended]
    exact rhythm.onward hclock.symm.le (Or.inl htrying) fun due h => hdue.symm.trans h
  · have hhanding := hstation'.trans ((Run.station_of_top hstack' rfl).trans hx)
    have hended : ended? r below.length (e, e') = some x := by
      simp [ended?, trying, hhanding, Station.result?]
    rw [endTimes_of_ended hended]
    exact rhythm.ended hclock hhanding hdue

/-- The visit is over: no tick is pending. -/
theorem Rhythm.leaves
    (rhythm : Rhythm interval.nanos r below.length (startTimes r below.length l)
      (endTimes r below.length l) e)
    (clock : e'.nanos = e.nanos)
    (idle : e.station r below.length ≠ .trying)
    (away : e'.station r below.length = .away) :
    Rhythm interval.nanos r below.length (startTimes r below.length (l ++ [(e, e')]))
      (endTimes r below.length (l ++ [(e, e')])) e' := by
  refine Rhythm.unseen (rhythm.onward clock.symm.le (Or.inr away) fun due h => ?_) idle
    (by simp [away])
  rw [due?_of_away away] at h
  cases h

/-- An attempt has ended, and the run pauses or leaves. -/
theorem Rhythm.hands
    (rhythm : Rhythm interval.nanos r below.length (startTimes r below.length l)
      (endTimes r below.length l) e)
    (stands : Standing cancels overflows limit interval ctx below r j key l e t run job)
    {x : Result}
    (handing : e.station r below.length = .handing x)
    (move : e' ∈ e.moves (.run r)) :
    Rhythm interval.nanos r below.length (startTimes r below.length (l ++ [(e, e')]))
      (endTimes r below.length (l ++ [(e, e')])) e' := by
  have hclock : e'.nanos = e.nanos := by rw [nanos, nanos, (timeless_of_mem_runMoves move).now]
  obtain ⟨signal, last, hlayer⟩ := stands.layer
  have hstation := (station_of_entry stands.entry below.length).symm.trans handing
  obtain ⟨e₁, hmoves, hnext⟩ :=
    stands.stage.moves_handed stands.entry stands.decorated hlayer hstation
  rw [hmoves] at move
  obtain rfl := List.mem_singleton.1 move
  rcases hnext with haway | ⟨f, hpausing⟩
  · exact rhythm.leaves hclock (by simp [handing]) haway
  · refine Rhythm.unseen ?_ (by simp [handing]) (by simp [hpausing])
    obtain ⟨due, hdue, htick⟩ := stands.stage.tick_of_pause stands.entry stands.decorated hlayer
      hstation (hmoves ▸ List.mem_singleton_self _) hpausing
    refine rhythm.paused hclock handing hpausing hdue (htick.imp_right ?_)
    rintro ⟨hnext, hn, hxs⟩
    exact ⟨hnext, (length_startTimes l).trans hn, (length_endTimes l).trans hxs⟩

/-- The run begins another attempt, or stops. -/
theorem Rhythm.pauses
    (rhythm : Rhythm interval.nanos r below.length (startTimes r below.length l)
      (endTimes r below.length l) e)
    (stands : Standing cancels overflows limit interval ctx below r j key l e t run job)
    {f : JobFailure}
    (pausing : e.station r below.length = .pausing f)
    (move : e' ∈ e.moves (.run r)) :
    Rhythm interval.nanos r below.length (startTimes r below.length (l ++ [(e, e')]))
      (endTimes r below.length (l ++ [(e, e')])) e' := by
  have hclock : e'.nanos = e.nanos := by rw [nanos, nanos, (timeless_of_mem_runMoves move).now]
  obtain ⟨signal, last, hlayer⟩ := stands.layer
  obtain ⟨fs, shutdown, due, hstack, hcontrol, -, -, hn, hxs, -⟩ :=
    stands.stage.of_pausing ((station_of_entry stands.entry below.length).symm.trans pausing)
  have hdue : e.due? r below.length = some due := due?_of_top stands.entry hstack
  have haway : ∀ reason, e' = e.stopRepeating r run below fs.length f reason →
      Rhythm interval.nanos r below.length (startTimes r below.length (l ++ [(e, e')]))
        (endTimes r below.length (l ++ [(e, e')])) e' := by
    rintro reason rfl
    exact rhythm.leaves hclock (by simp [pausing]) (station_stopRepeating stands.entry)
  rcases (mem_moves_pausing_iff _ stands.entry hcontrol hstack).1 move with
    ⟨hcome, rfl⟩ | ⟨-, h⟩ | ⟨-, h⟩
  · have htrying : (e.repeatAttempt r run below shutdown ctx fs.length due f).station r
        below.length = .trying := station_repeatAttempt stands.entry
    have hbegins : begins r below.length
        (e, e.repeatAttempt r run below shutdown ctx fs.length due f) = true := by
      simp [begins, pausing, htrying]
    rw [startTimes_of_begins hbegins,
      endTimes_of_not_ended (ended?_of_not_trying (by simp [pausing]))]
    refine rhythm.again hclock ?_ pausing hdue hcome htrying
      (due?_repeatAttempt stands.entry stands.decorated hlayer)
    rw [length_startTimes l, length_endTimes l, hn, hxs]
    simp
  · exact haway _ h
  · exact haway _ h

/-- **Every step of a visit keeps the pace**, if the clock goes on only while the run cannot
move. -/
theorem Rhythm.step
    (rhythm : Rhythm interval.nanos r below.length (startTimes r below.length l)
      (endTimes r below.length l) e)
    (stands : Standing cancels overflows limit interval ctx below r j key l e t run job)
    (visiting : Visiting r below.length e e')
    (onTime : OnTime r e e') :
    Rhythm interval.nanos r below.length (startTimes r below.length (l ++ [(e, e')]))
      (endTimes r below.length (l ++ [(e, e')])) e' := by
  rcases visiting.1.own stands.entry with hstill | hmove
  · exact rhythm.stays stands onTime hstill
  · cases hstation : e.station r below.length with
    | away => exact absurd hstation visiting.2
    | arriving => exact .arrives stands hstation hmove
    | trying => exact rhythm.tries stands hstation hmove
    | handing x => exact rhythm.hands stands hstation hmove
    | pausing f => exact rhythm.pauses stands hstation hmove

/-- **Along every path a visit keeps the pace.** -/
theorem Arrival.rhythm
    (arrival : e.Arrival r run job ctx signal limit interval)
    (path : Path (Visiting r run.stack.length) e l e')
    (onTime : ∀ step ∈ l, OnTime r step.1 step.2) :
    Rhythm interval.nanos r run.stack.length (startTimes r run.stack.length l)
      (endTimes r run.stack.length l) e' := by
  induction path with
  | start =>
      have harriving := arrival.station
      refine ⟨nofun, nofun, ?_, ?_, ?_⟩
      · intro x handing
        rw [harriving] at handing
        cases handing
      · intro f pausing
        rw [harriving] at pausing
        cases pausing
      · intro due h
        rw [due?_of_entry arrival.entry, Run.due?_of_out le_rfl] at h
        cases h
  | next path last ih =>
      obtain ⟨_, _, _, hstands⟩ := arrival.stands_anyhow path
      exact (ih fun step hs => onTime step (List.mem_append_left _ hs)).step hstands last
        (onTime _ List.mem_concat_self)

end Visits

end Steps

/-- What is seen of the pace of a visit to a layer that repeats, and what can be seen of it next. -/
structure Paces
    (limit : Int)
    (interval : Span)
    (ctx : Context)
    (r : RunId)
    (d : Nat)
    (l : List (Executor × Executor))
    (e : Executor) :
    Prop where
  /-- An attempt begins only when the one before has ended. -/
  inTurn : ∀ k start, (startTimes r d l)[k + 1]? = some start →
    ∃ lastEnd, (endTimes r d l)[k]? = some lastEnd
  /-- The second attempt begins an interval after the end of the first one. -/
  second : ∀ firstEnd start, (endTimes r d l)[0]? = some firstEnd →
    (startTimes r d l)[1]? = some start →
    start = onClock (firstEnd + interval.nanos) ∧
      (nanosPerMilli ∣ interval.nanos → start = firstEnd + interval.nanos)
  /-- Each attempt but the first one begins at the later of the end of the one before and the tick
  that is pending then. -/
  later : ∀ k firstEnd lastEnd start, (endTimes r d l)[0]? = some firstEnd →
    (endTimes r d l)[k]? = some lastEnd → (startTimes r d l)[k + 1]? = some start →
    let tick := pendingTick interval.nanos firstEnd (((startTimes r d l).drop 1).take k)
    start = onClock (max lastEnd tick) ∧
      (nanosPerMilli ∣ interval.nanos → start = max lastEnd tick)
  /-- Two attempts that follow one another begin an interval apart, but for five milliseconds. -/
  apart : ∀ k start next, (startTimes r d l)[k]? = some start →
    (startTimes r d l)[k + 1]? = some next → start + interval.nanos ≤ next + 5 * nanosPerMilli
  /-- A run pauses after a failed attempt if repetitions are left, unless the clock does not get an
  interval further. -/
  pauses : ∀ f, e.station r d = .handing (.outcome (.err f)) →
    (0 ≤ limit → (attempts r d l : Int) ≤ limit) → ¬e.RunsOut r d interval →
    ∃ e', e.moves (.run r) = [e'] ∧ e'.station r d = .pausing f
  /-- The clock is not beyond the next attempt while a run pauses; until it has come to the pending
  tick the run cannot move, and then it can do nothing but begin that attempt. -/
  waits : ∀ f, e.station r d = .pausing f → e.calledOff r d ctx = false →
    ∃ firstEnd lastEnd,
      (endTimes r d l)[0]? = some firstEnd ∧ (endTimes r d l).getLast? = some lastEnd ∧
      let tick := pendingTick interval.nanos firstEnd ((startTimes r d l).drop 1)
      lastEnd ≤ e.nanos ∧ e.nanos ≤ onClock (max lastEnd tick) ∧
      (∀ now, now * nanosPerMilli < tick → (e.setClock now).moves (.run r) = []) ∧
      ∀ now, tick ≤ now * nanosPerMilli →
        ∃ e', (e.setClock now).moves (.run r) = [e'] ∧ begins r d (e.setClock now, e') = true

/-- **Attempts are paced, never bunched.**  A run comes to a layer that repeats, whatever befell the
executor before and whatever befalls it on the way, on a clock that goes on only while the run
cannot move.  Attempts may take as long as they like.  Then the second attempt begins an interval
after the end of the first one, every later one at the later of the end of the one before and the
pending tick, and two that follow one another begin an interval apart, but for the five
milliseconds by which a tick may be late and the next one still keep to it. -/
theorem attempts_paced
    {e e' : Executor}
    {r : RunId}
    {run : Run}
    {job : Job}
    {ctx : Context}
    {signal : SignalId}
    {limit : Int}
    {interval : Span}
    {l : List (Executor × Executor)}
    (arrival : e.Arrival r run job ctx signal limit interval)
    (path : Path (Visiting r run.stack.length) e l e')
    (onTime : ∀ step ∈ l, OnTime r step.1 step.2) :
    Paces limit interval ctx r run.stack.length l e' := by
  obtain ⟨t, run', job', hstands⟩ := arrival.stands_anyhow path
  obtain ⟨signal', last, hlayer⟩ := hstands.layer
  have hstation := station_of_entry hstands.entry run.stack.length
  have hrhythm := arrival.rhythm path onTime
  have hlater : ∀ k firstEnd lastEnd start, (endTimes r run.stack.length l)[0]? = some firstEnd →
      (endTimes r run.stack.length l)[k]? = some lastEnd →
      (startTimes r run.stack.length l)[k + 1]? = some start →
      start = onClock (max lastEnd (pendingTick interval.nanos firstEnd
        (((startTimes r run.stack.length l).drop 1).take k))) ∧
      (nanosPerMilli ∣ interval.nanos → start = max lastEnd (pendingTick interval.nanos firstEnd
        (((startTimes r run.stack.length l).drop 1).take k))) := by
    intro k firstEnd lastEnd start hfirst hlast hstart
    obtain ⟨firstEnd', lastEnd', hfirst', hlast', h⟩ := hrhythm.paced k start hstart
    obtain rfl := Option.some.inj (hfirst.symm.trans hfirst')
    obtain rfl := Option.some.inj (hlast.symm.trans hlast')
    refine ⟨h, fun whole => h.trans (onClock_of_whole ?_)⟩
    have hbegun : ∀ s ∈ ((startTimes r run.stack.length l).drop 1).take k, nanosPerMilli ∣ s :=
      fun s hs => whole_of_mem_startTimes (List.mem_of_mem_drop (List.mem_of_mem_take hs))
    have hended := whole_of_mem_endTimes (List.mem_of_getElem? hlast)
    have htick := whole_pendingTick whole (whole_of_mem_endTimes (List.mem_of_getElem? hfirst))
      hbegun
    rcases max_choice lastEnd (pendingTick interval.nanos firstEnd
      (((startTimes r run.stack.length l).drop 1).take k)) with hmax | hmax <;> rwa [hmax]
  refine
    { inTurn := ?_
      second := ?_
      later := hlater
      apart := ?_
      pauses := ?_
      waits := ?_ }
  · intro k start hstart
    obtain ⟨_, lastEnd, -, hlast, -⟩ := hrhythm.paced k start hstart
    exact ⟨lastEnd, hlast⟩
  · intro firstEnd start hfirst hstart
    have hmax : max firstEnd (firstEnd + interval.nanos) = firstEnd + interval.nanos :=
      max_eq_right (Nat.le_add_right _ _)
    simpa [pendingTick, hmax] using hlater 0 firstEnd firstEnd start hfirst hfirst hstart
  · intro k start next hstart hnext
    exact hrhythm.paced.apart (fun s firstEnd hs => (hrhythm.first s hs).2 firstEnd) hstart hnext
  · intro f handing more further
    exact hstands.stage.moves_failed hstands.entry hstands.decorated hlayer
      (hstation.symm.trans handing) more further
  · intro f pausing undisturbed
    obtain ⟨due, lastEnd, hdue, hlast, hended, hclock⟩ := hrhythm.pausing f pausing
    obtain ⟨firstEnd, hfirst, rfl⟩ := hrhythm.pending due hdue
    refine ⟨firstEnd, lastEnd, hfirst, hlast, hended, hclock, fun now => ?_, fun now => ?_⟩
    · exact (hstands.stage.moves_ticking (e := e'.setClock now) hstands.entry
        (hstation.symm.trans pausing) undisturbed hdue).1
    · intro come
      obtain ⟨e₁, hmoves, htrying⟩ := (hstands.stage.moves_ticking (e := e'.setClock now)
        hstands.entry (hstation.symm.trans pausing) undisturbed hdue).2 come
      have hpausing : (e'.setClock now).station r run.stack.length = .pausing f := pausing
      exact ⟨e₁, hmoves, by simp [begins, hpausing, htrying]⟩

/-- The job is repeated three times, and its second attempt takes longer than the interval. -/
def sluggish : Executor :=
  onBench 3 shortestRetry "sluggish"
    [{ ending := .fail "at once" }, { sleep := some 350, ending := .fail "late" },
      { ending := .fail "at once" }]

/-- The run makes three attempts, each of which fails, and begins a fourth one. -/
def fourTimes : List (Executor × Executor) :=
  let go (n : Nat) := List.replicate n (Incident.move (.run 0) 0)
  undergone (go 5 ++ [.clock 100] ++ go 2 ++ [.clock 450] ++ go 9 ++ [.clock 550] ++ go 1) sluggish

theorem attempts_paced_fourTimes :
    ∃ job e, sluggish.Arrival 0 arriving job ⟨1, none⟩ 0 3 shortestRetry ∧
      Path (Visiting 0 0) sluggish fourTimes e ∧
      (fourTimes.all fun step => decide (OnTime 0 step.1 step.2)) = true ∧
      startTimes 0 0 fourTimes = [0, 100, 450, 550].map (· * nanosPerMilli) ∧
      endTimes 0 0 fourTimes = [0, 450, 450].map (· * nanosPerMilli) ∧
      Paces 3 shortestRetry ⟨1, none⟩ 0 0 fourTimes e := by
  have harrival := arrival_onBench 3 shortestRetry "sluggish"
    [{ ending := .fail "at once" }, { sleep := some 350, ending := .fail "late" },
      { ending := .fail "at once" }]
  have hpath : Path (Visiting 0 0) sluggish fourTimes (terminus sluggish fourTimes) :=
    path_visiting _ _ (by simp) (by decide +kernel)
  have honTime : (fourTimes.all fun step => decide (OnTime 0 step.1 step.2)) = true := by
    decide +kernel
  refine ⟨_, _, harrival, hpath, honTime, by decide +kernel, by decide +kernel,
    attempts_paced harrival hpath ?_⟩
  intro step hstep
  simpa using List.all_eq_true.1 honTime step hstep

/-- An interval that ends between two milliseconds. -/
def broken : Span :=
  ⟨100500000, by decide⟩

/-- The first attempt fails at once, and the second one begins when the clock has come to it. -/
def behindTime : List (Executor × Executor) :=
  let go (n : Nat) := List.replicate n (Incident.move (.run 0) 0)
  undergone (go 5 ++ [.clock 101] ++ go 1)
    (onBench 1 broken "broken" [{ ending := .fail "at once" }, {}])

/-- **The clock does not show the end of every interval**: the second attempt begins half a
millisecond after an interval has passed since the end of the first one. -/
theorem begun_behind_time :
    ∃ job e, shortestRetry ≤ broken ∧
      (onBench 1 broken "broken" [{ ending := .fail "at once" }, {}]).Arrival 0 arriving job
        ⟨1, none⟩ 0 1 broken ∧
      Path (Visiting 0 0) (onBench 1 broken "broken" [{ ending := .fail "at once" }, {}])
        behindTime e ∧
      (behindTime.all fun step => decide (OnTime 0 step.1 step.2)) = true ∧
      endTimes 0 0 behindTime = [0] ∧
      startTimes 0 0 behindTime = [0, 101 * nanosPerMilli] ∧
      0 + broken.nanos < 101 * nanosPerMilli := by
  have harrival := arrival_onBench 1 broken "broken" [{ ending := .fail "at once" }, {}]
  exact ⟨_, _, by decide, harrival, path_visiting _ _ (by simp) (by decide +kernel),
    by decide +kernel, by decide +kernel, by decide +kernel, by decide⟩

end Executor
end Timetable
