import Timetable.Proofs.Executor.Barrier
import Timetable.Proofs.Executor.Repeating

/-!
# How often a layer repeats

A layer that repeats makes one attempt after the other until one does not fail, or until as many
repetitions as its limit have failed; without a limit only the former ends it.  The run then
leaves with what the last attempt has come to, and the layer keeps that, unless it has unwound.

There is one way in which it does not come to this.  After the first attempt the layer asks the
clock for the moment one interval later, whether or not there will be a repetition, and where
the clock does not get that far, the run unwinds.

Main results:

* an attempt that has ended is followed by a pause, or the run leaves (station_attemptEnded);
* the law of repetition (retries_until_enough), and a success that is lost because the clock
  does not get an interval further (success_lost).
-/

namespace Timetable

/-- After the attempt at a position no other one is made: it has not failed, or as many
repetitions as the limit have been made. -/
def Enough
    (limit : Int)
    (s : Nat → Result)
    (m : Nat) :
    Prop :=
  1 ≤ m ∧ ((s m).failed = false ∨ (0 ≤ limit ∧ (m : Int) = limit + 1))

/-- Attempts that have failed while repetitions were left are not enough. -/
theorem lt_of_enough
    {limit : Int}
    {s : Nat → Result}
    {fs : List JobFailure}
    {m : Nat}
    (enough : Enough limit s m)
    (failed : ∀ (i : Nat) (f : JobFailure), fs[i]? = some f → s (i + 1) = .outcome (.err f))
    (allowed : 0 ≤ limit → (fs.length : Int) ≤ limit) :
    fs.length < m := by
  obtain ⟨hpositive, hgood | ⟨hlimit, hm⟩⟩ := enough
  · by_contra hle
    have hlt : m - 1 < fs.length := by omega
    have hfailed := failed (m - 1) fs[m - 1] (List.getElem?_eq_getElem hlt)
    rw [Nat.sub_add_cancel hpositive] at hfailed
    rw [hfailed] at hgood
    cases hgood
  · have := allowed hlimit
    omega

/-- A failed attempt is enough exactly if no repetition is left. -/
theorem enough_iff_exhausted
    {limit : Int}
    {s : Nat → Result}
    {m : Nat}
    {f : JobFailure}
    (failed : s (m + 1) = .outcome (.err f))
    (allowed : 0 ≤ limit → (m : Int) ≤ limit) :
    Enough limit s (m + 1) ↔ Executor.exhausted limit m = true := by
  simp only [Enough, Executor.exhausted, failed, Result.failed, decide_eq_true_eq,
    Bool.true_eq_false, false_or]
  omega

namespace Executor

theorem firstTick?_eq_none_iff
    {now interval : Nat} :
    firstTick? now interval = none ↔ clockLimit * nanosPerSecond ≤ now + interval := by
  unfold firstTick?
  split
  · simp_all
  · simp_all

variable {e e' : Executor} {r : RunId} {run run' : Run} {job : Job} {d : Nat}

section Moves

variable {shutdown : TokenId} {ctx : Context} {repeated : Nat} {below : List Frame}
  {signal : SignalId} {limit : Int} {interval : Span} {last : Option Outcome}

theorem station_resume
    (present : r < e.runs.length)
    (run : Run)
    (frames : List Frame)
    (c : Control)
    (d : Nat) :
    (e.resume r run frames c).station r d =
      Run.station { run with stack := frames, control := c } d :=
  station_of_entry (List.getElem?_set_self present) d

/-- **After an attempt the run pauses if it has failed and repetitions are left**, and comes away
otherwise, also where the clock does not get an interval further. -/
theorem station_attemptEnded
    {due : Option Nat}
    (entry : e.runs[r]? = some run)
    (decorated : e.jobs[run.job]? = some job)
    (layer : job.layers[below.length]? = some (.retry signal limit interval last))
    (o : Outcome) :
    (e.attemptEnded r run below shutdown ctx repeated due o).station r below.length =
      match due.or (firstTick? e.nanos interval.nanos), o with
      | some _, .err f => if exhausted limit repeated then .away else .pausing f
      | _, _ => .away := by
  have hpresent : r < e.runs.length := (List.getElem?_eq_some_iff.1 entry).1
  have haway : ∀ {e₁ : Executor} {c : Control}, e₁.runs = e.runs → (∀ ctx, c ≠ .entering ctx) →
      (e₁.resume r run below c).station r below.length = .away := by
    intro e₁ c hruns hc
    rw [station_resume (hruns ▸ hpresent)]
    exact Run.station_of_left rfl hc
  simp only [attemptEnded, retrySettings_of_layer decorated layer]
  cases due.or (firstTick? e.nanos interval.nanos) with
  | none =>
      refine haway rfl ?_
      simp
  | some next =>
      cases o with
      | ok =>
          refine haway rfl ?_
          simp
      | err f =>
          dsimp only
          split
          · refine haway rfl ?_
            simp
          · rw [station_resume hpresent, Run.station_of_top rfl rfl]
            rfl

/-- A run that repeats tries again. -/
theorem station_repeatAttempt
    {due : Nat}
    {f : JobFailure}
    (entry : e.runs[r]? = some run) :
    (e.repeatAttempt r run below shutdown ctx repeated due f).station r below.length =
      .trying := by
  refine (station_resume ?_ run _ _ _).trans (Run.station_of_top rfl rfl)
  exact (List.getElem?_eq_some_iff.1 entry).1

/-- A run that stops repeating comes away. -/
theorem station_stopRepeating
    {f : JobFailure}
    {reason : String}
    (entry : e.runs[r]? = some run) :
    (e.stopRepeating r run below repeated f reason).station r below.length = .away := by
  refine (station_resume ?_ run _ _ _).trans (Run.station_of_left rfl ?_)
  · exact (List.getElem?_eq_some_iff.1 entry).1
  · simp

end Moves

section Stages

variable {cancels overflows : Prop} {limit : Int} {ctx : Context} {below : List Frame}
  {t : Option TokenId} {n k : Nat} {xs : List Result} {s : Nat → Result}

/-- The attempts but the last one have failed while repetitions were left. -/
theorem Stage.attempted
    (stage : Stage cancels overflows limit ctx below t n xs k run) :
    n = 0 ∨ ∃ fs rest, n = fs.length + 1 ∧ xs = failures fs ++ rest ∧
      (0 ≤ limit → (fs.length : Int) ≤ limit) := by
  cases stage with
  | arriving => exact Or.inl rfl
  | trying _ _ _ allowed => exact Or.inr ⟨_, [], rfl, (List.append_nil _).symm, allowed⟩
  | handing _ _ _ allowed | settled _ _ _ allowed | unwound _ _ allowed =>
      exact Or.inr ⟨_, _, rfl, rfl, allowed⟩
  | pausing _ _ more | stopped _ _ _ more =>
      exact Or.inr ⟨_, _, rfl, rfl, fun hlimit => (lt_of_not_exhausted more hlimit).le⟩
  | overflowed => exact Or.inr ⟨[], _, rfl, rfl, id⟩

/-- No attempt begins after one that was enough. -/
theorem Stage.within
    (stage : Stage cancels overflows limit ctx below t n xs k run)
    (told : ∀ (i : Nat) (x : Result), xs[i]? = some x → s (i + 1) = x)
    {m : Nat}
    (enough : Enough limit s m) :
    n ≤ m := by
  rcases stage.attempted with rfl | ⟨fs, rest, rfl, rfl, hallowed⟩
  · exact Nat.zero_le m
  · refine lt_of_enough enough ?_ hallowed
    intro i f hf
    refine told i _ ?_
    rw [List.getElem?_append_left (by simpa using (List.getElem?_eq_some_iff.1 hf).1)]
    simp [failures, hf]

/-- The last of so many results is that of the last attempt. -/
theorem told_last
    {fs : List JobFailure}
    {x : Result}
    (told : ∀ (i : Nat) (y : Result), (failures fs ++ [x])[i]? = some y → s (i + 1) = y) :
    s (fs.length + 1) = x := by
  refine told fs.length x ?_
  rw [← length_failures fs, List.getElem?_concat_length]

/-- A run that comes away without having heard a cancellation does so after an attempt that was
enough, or because of the clock. -/
theorem Stage.departed
    (stage : Stage False overflows limit ctx below t n xs k run)
    (told : ∀ (i : Nat) (x : Result), xs[i]? = some x → s (i + 1) = x)
    {x : Result}
    (departed : run.departed? below.length = some x) :
    (Enough limit s n ∧ s n = x ∧ k = if 0 ≤ limit ∧ x.failed = true then 1 else 0) ∨
      (n = 1 ∧ x = .burst clockOverflow ∧ k = 0 ∧ overflows) := by
  refine (stage.of_departed departed).imp_left ?_
  rintro ⟨fs, rfl, rfl, hallowed, hheard⟩
  obtain ⟨hspent, rfl⟩ := hheard not_false
  have hlast := told_last told
  cases hfailed : x.failed with
  | false => exact ⟨⟨by omega, Or.inl (by rw [hlast, hfailed])⟩, hlast, by simp⟩
  | true =>
      obtain ⟨f, rfl⟩ : ∃ f, x = .outcome (.err f) := by
        unfold Result.failed at hfailed
        split at hfailed
        · exact ⟨_, rfl⟩
        · cases hfailed
      have hexhausted := hspent hfailed
      have hlimit : 0 ≤ limit := (of_decide_eq_true hexhausted).1
      exact ⟨(enough_iff_exhausted hlast hallowed).2 hexhausted, hlast, by simp [hlimit]⟩

/-- Nothing is reported of a run that has not come away. -/
theorem Stage.silent
    (stage : Stage cancels overflows limit ctx below t n xs k run)
    (inside : run.departed? below.length = none) :
    k = 0 := by
  cases stage with
  | settled stack control =>
      rw [Run.departed?, stack, if_pos rfl, control] at inside
      cases inside
  | _ => rfl

/-- A run that is away has come away with a result. -/
theorem Stage.away
    (stage : Stage cancels overflows limit ctx below t n xs k run)
    (gone : run.station below.length = .away) :
    (run.departed? below.length).isSome = true := by
  have hdeparted : ∀ {c : Control}, run.control = c → run.stack = below →
      c.station.result?.isSome = true → (run.departed? below.length).isSome = true := by
    rintro c rfl hstack hresult
    rwa [Run.departed?, hstack, if_pos rfl]
  cases stage with
  | arriving stack control =>
      rw [Run.station_of_out stack rfl, Run.arrivesAt, control, stack] at gone
      simp at gone
  | trying stack inside =>
      rw [Run.station_of_inside stack inside] at gone
      cases gone
  | handing stack control | pausing stack control =>
      rw [Run.station_of_top stack rfl, control] at gone
      cases gone
  | settled stack control | stopped _ stack control | unwound stack control
  | overflowed _ stack control => exact hdeparted control stack rfl

end Stages

section Progress

variable {cancels overflows : Prop} {limit : Int} {interval : Span} {signal : SignalId}
  {last : Option Outcome} {ctx : Context} {below : List Frame} {t : Option TokenId} {n k : Nat}
  {xs : List Result} {s : Nat → Result}

/-- A run that arrives can do nothing but begin an attempt. -/
theorem moves_of_station_arriving
    (entry : e.runs[r]? = some run)
    (decorated : e.jobs[run.job]? = some job)
    (layer : job.layers[d]? = some (.retry signal limit interval last))
    (arriving : run.station d = .arriving) :
    ∃ e', e.moves (.run r) = [e'] ∧ e'.station r d = .trying := by
  obtain ⟨rfl, ctx, control⟩ := Run.of_station_arriving arriving
  refine ⟨_, moves_arriving entry decorated control layer, ?_⟩
  have hpresent : r < e.runs.length := (List.getElem?_eq_some_iff.1 entry).1
  exact (station_resume hpresent run _ _ _).trans (Run.station_of_top rfl rfl)

/-- **When an attempt has ended, the run can do nothing but come away if that was enough**, or if
the clock does not get any further, and pause otherwise. -/
theorem Stage.moves_handing
    (stage : Stage cancels overflows limit ctx below t n xs k run)
    (told : ∀ (i : Nat) (x : Result), xs[i]? = some x → s (i + 1) = x)
    (entry : e.runs[r]? = some run)
    (decorated : e.jobs[run.job]? = some job)
    (layer : job.layers[below.length]? = some (.retry signal limit interval last))
    {x : Result}
    (handing : run.station below.length = .handing x) :
    ∃ e', e.moves (.run r) = [e'] ∧
      (e.RunsOut r below.length interval ∨ Enough limit s n → e'.station r below.length = .away) ∧
      (¬e.RunsOut r below.length interval → ¬Enough limit s n →
        ∃ f, x = .outcome (.err f) ∧ e'.station r below.length = .pausing f) := by
  obtain ⟨fs, shutdown, due, hstack, hcontrol, hfirst, hallowed, rfl, rfl⟩ :=
    stage.of_handing handing
  have hlast := told_last told
  cases hended : run.control with
  | unwinding p =>
      obtain rfl : .burst p = x := by
        rw [hended] at hcontrol
        exact Station.handing.inj hcontrol
      have henough : Enough limit s (fs.length + 1) := ⟨by omega, Or.inl (by rw [hlast]; rfl)⟩
      refine ⟨_, Executor.moves_bursting entry hended hstack, fun _ => ?_,
        fun _ hmore => absurd henough hmore⟩
      rw [station_resume (List.getElem?_eq_some_iff.1 entry).1]
      exact Run.station_of_left rfl (by simp)
  | leaving o =>
      obtain rfl : .outcome o = x := by
        rw [hended] at hcontrol
        exact Station.handing.inj hcontrol
      have hruns : e.RunsOut r below.length interval ↔
          due.or (firstTick? e.nanos interval.nanos) = none := by
        have hhanding : ∃ o', e.station r below.length = .handing (.outcome o') :=
          ⟨o, (station_of_entry entry _).trans handing⟩
        have hdue : e.due? r below.length = due := due?_of_top entry hstack
        rw [RunsOut, hdue, Option.or_eq_none_iff, firstTick?_eq_none_iff]
        exact and_iff_right hhanding
      refine ⟨_, Executor.moves_handing entry hended hstack, ?_, ?_⟩
      · rw [station_attemptEnded entry decorated layer, hruns]
        rintro (hnone | henough)
        · rw [hnone]
        · cases due.or (firstTick? e.nanos interval.nanos) with
          | none => rfl
          | some next =>
              cases o with
              | ok => rfl
              | err f => exact if_pos ((enough_iff_exhausted hlast hallowed).1 henough)
      · rw [station_attemptEnded entry decorated layer, hruns]
        intro hsome hmore
        obtain ⟨next, hnext⟩ := Option.ne_none_iff_exists'.1 hsome
        rw [hnext]
        cases o with
        | ok => exact absurd ⟨by omega, Or.inl (by rw [hlast]; rfl)⟩ hmore
        | err f =>
            exact ⟨f, rfl, if_neg fun h => hmore ((enough_iff_exhausted hlast hallowed).2 h)⟩
  | _ =>
      rw [hended] at hcontrol
      cases hcontrol

/-- **A run that pauses waits for its tick**, unless a cancellation is heard, and can do nothing
then but begin an attempt. -/
theorem Stage.moves_ticking
    (stage : Stage cancels overflows limit ctx below t n xs k run)
    (entry : e.runs[r]? = some run)
    {f : JobFailure}
    (pausing : run.station below.length = .pausing f)
    (undisturbed : e.calledOff r below.length ctx = false)
    {due : Nat}
    (tick : e.due? r below.length = some due) :
    (e.nanos < due → e.moves (.run r) = []) ∧
      (due ≤ e.nanos → ∃ e', e.moves (.run r) = [e'] ∧ e'.station r below.length = .trying) := by
  obtain ⟨fs, shutdown, due', hstack, hcontrol, -, -, -, -, -⟩ := stage.of_pausing pausing
  obtain rfl : due' = due := Option.some.inj ((due?_of_top entry hstack).symm.trans tick)
  have hfollowed : e.followed? r below.length = some shutdown := followed?_of_top entry hstack
  rw [calledOff, hfollowed, Option.any_some, Bool.or_eq_false_iff] at undisturbed
  have hmoves := Executor.moves_pausing entry hcontrol hstack
  rw [undisturbed.1, undisturbed.2, if_neg Bool.false_ne_true, if_neg Bool.false_ne_true,
    List.append_nil, List.append_nil] at hmoves
  refine ⟨fun hearly => ?_, fun hlate =>
    ⟨e.repeatAttempt r run below shutdown ctx fs.length due' f, ?_, ?_⟩⟩
  · rw [hmoves, if_neg (Nat.not_le.2 hearly)]
  · rw [hmoves, if_pos hlate]
  · exact station_repeatAttempt entry

/-- So there is a tick for which it waits. -/
theorem Stage.moves_pausing
    (stage : Stage cancels overflows limit ctx below t n xs k run)
    (entry : e.runs[r]? = some run)
    {f : JobFailure}
    (pausing : run.station below.length = .pausing f)
    (undisturbed : e.calledOff r below.length ctx = false) :
    ∃ due, (e.nanos < due → e.moves (.run r) = []) ∧
      (due ≤ e.nanos → ∃ e', e.moves (.run r) = [e'] ∧ e'.station r below.length = .trying) := by
  obtain ⟨fs, shutdown, due, hstack, -⟩ := stage.of_pausing pausing
  exact ⟨due, stage.moves_ticking entry pausing undisturbed (due?_of_top entry hstack)⟩

end Progress

/-- A run has come to a layer that repeats, whatever has befallen the executor before. -/
structure Arrival
    (e : Executor)
    (r : RunId)
    (run : Run)
    (job : Job)
    (ctx : Context)
    (signal : SignalId)
    (limit : Int)
    (interval : Span) :
    Prop where
  before : ∃ e₀ : Executor, e₀.runs = [] ∧ e₀.jobs = [] ∧ e₀.Befell e
  entry : e.runs[r]? = some run
  decorated : e.jobs[run.job]? = some job
  wrapped : job.chain[run.stack.length]? = some (.retry signal limit interval)
  control : run.control = .entering ctx

/-- Where a visit stands after some steps. -/
structure Standing
    (cancels overflows : Prop)
    (limit : Int)
    (interval : Span)
    (ctx : Context)
    (below : List Frame)
    (r : RunId)
    (j : JobId)
    (key : String)
    (l : List (Executor × Executor))
    (e : Executor)
    (t : Option TokenId)
    (run : Run)
    (job : Job) :
    Prop where
  entry : e.runs[r]? = some run
  ofJob : run.job = j
  decorated : e.jobs[run.job]? = some job
  layer : ∃ signal last, job.layers[below.length]? = some (.retry signal limit interval last)
  stage : Stage cancels overflows limit ctx below t (attempts r below.length l)
    (results r below.length l) (exhaustions r below.length l) run
  counted : retriesCounted r below.length key l = attempts r below.length l - 1
  tokens : ∀ step ∈ l, ∀ u, step.2.followed? r below.length = some u → t = some u
  keeps : ∀ step ∈ l, step.1.runs[r]? ≠ step.2.runs[r]? →
    step.2.keptOutcome j below.length =
      (step.2.returned? r below.length).or (step.1.keptOutcome j below.length)

section Arrival

variable {ctx : Context} {signal : SignalId} {limit : Int} {interval : Span}
  {l : List (Executor × Executor)}

theorem Arrival.station
    (arrival : e.Arrival r run job ctx signal limit interval) :
    e.station r run.stack.length = .arriving := by
  rw [station_of_entry arrival.entry, Run.station_of_out rfl rfl, Run.arrivesAt, arrival.control]
  simp

/-- **Along every path a visit stands where its attempts and their results say.** -/
theorem Arrival.stands
    (arrival : e.Arrival r run job ctx signal limit interval)
    (path : Path (Visiting r run.stack.length) e l e')
    (cancels overflows : Prop)
    (cancelled : ∀ step ∈ l, step.1.calledOff r run.stack.length ctx = true → cancels)
    (never : ∀ step ∈ l, step.1.RunsOut r run.stack.length interval → overflows) :
    ∃ t run' job', Standing cancels overflows limit interval ctx run.stack r run.job job.task.key l
      e' t run' job' := by
  obtain ⟨e₀, runs₀, jobs₀, befell⟩ := arrival.before
  have horderly : e.Orderly := (orderly_of_blank runs₀ jobs₀).befell befell
  have hfirst : Stage cancels overflows limit ctx run.stack none 0 [] 0 run :=
    .arriving rfl arrival.control
  obtain ⟨⟨t, run', hleads⟩, -, job', hjob', hchain, -⟩ :=
    hfirst.path arrival.entry horderly arrival.decorated arrival.wrapped path cancelled never
  obtain ⟨layer, hlayer, hwrapper⟩ := Job.exists_layer (hchain ▸ arrival.wrapped)
  have hretry : ∃ signal last,
      job'.layers[run.stack.length]? = some (.retry signal limit interval last) := by
    cases layer with
    | retry signal' limit' interval' last =>
        cases hwrapper
        exact ⟨_, _, hlayer⟩
    | _ => cases hwrapper
  have hstage := hleads.stage
  have hcounted := hleads.counted
  rw [Nat.zero_add, List.nil_append, Nat.zero_add] at hstage
  rw [Nat.zero_add] at hcounted
  exact ⟨t, run', job',
    { entry := hleads.entry
      ofJob := hleads.job
      decorated := by rwa [hleads.job]
      layer := hretry
      stage := hstage
      counted := by omega
      tokens := hleads.tokens
      keeps := hleads.keeps }⟩

/-- So it does where cancellations may be heard and the clock may run out. -/
theorem Arrival.stands_anyhow
    (arrival : e.Arrival r run job ctx signal limit interval)
    (path : Path (Visiting r run.stack.length) e l e') :
    ∃ t run' job', Standing True True limit interval ctx run.stack r run.job job.task.key l e' t
      run' job' :=
  arrival.stands path True True (fun _ _ _ => trivial) fun _ _ _ => trivial

/-- The layer keeps the outcome of a run that has come away with one. -/
theorem Standing.records
    {cancels overflows : Prop}
    {t : Option TokenId}
    {key : String}
    (stands : Standing cancels overflows limit interval ctx run.stack r run.job key l e' t run' job)
    {other : Job}
    (arrival : e.Arrival r run other ctx signal limit interval)
    (path : Path (Visiting r run.stack.length) e l e')
    {o : Outcome}
    (departed : e'.departed? r run.stack.length = some (.outcome o)) :
    e'.keptOutcome run.job run.stack.length = some o := by
  have hgone : e'.station r run.stack.length = .away := by
    rw [station_of_entry stands.entry]
    exact Run.station_of_departed ((departed?_of_entry stands.entry _).symm.trans departed)
  have hpresent : e.station r run.stack.length ≠ .away := by simp [arrival.station]
  obtain ⟨step, hstep, rfl, hmoved⟩ := path.came_away hpresent hgone
  rw [stands.keeps step hstep hmoved, returned?, departed]
  rfl

end Arrival

/-- What has been seen of a visit to a layer that repeats, given what the attempts come to, and
what can be seen of it next. -/
structure Retries
    (limit : Int)
    (interval : Span)
    (ctx : Context)
    (s : Nat → Result)
    (r : RunId)
    (j : JobId)
    (key : String)
    (d : Nat)
    (l : List (Executor × Executor))
    (e : Executor) :
    Prop where
  /-- Each attempt but the first one is counted as a repetition. -/
  counted : retriesCounted r d key l = attempts r d l - 1
  /-- No attempt begins after one that was enough. -/
  within : ∀ m, Enough limit s m → attempts r d l ≤ m
  /-- With a step of the run the layer keeps the outcome with which the run has come away, and
  what it has kept before if there is none. -/
  keeps : ∀ step ∈ l, step.1.runs[r]? ≠ step.2.runs[r]? →
    step.2.keptOutcome j d = (step.2.returned? r d).or (step.1.keptOutcome j d)
  /-- A run that has come away has done so with the result of the first attempt that was enough,
  and it is reported if that was a failure after which no repetition was left; or the clock does
  not get an interval further after the first attempt. -/
  departed : ∀ x, e.departed? r d = some x →
    (IsLeast {m | Enough limit s m} (attempts r d l) ∧ s (attempts r d l) = x ∧
        exhaustions r d l = if 0 ≤ limit ∧ x.failed = true then 1 else 0) ∨
      (attempts r d l = 1 ∧ x = .burst clockOverflow ∧ exhaustions r d l = 0 ∧
        ∃ step ∈ l, step.1.RunsOut r d interval)
  /-- The layer keeps the outcome of a run that has come away with one. -/
  records : ∀ o, e.departed? r d = some (.outcome o) → e.keptOutcome j d = some o
  /-- Nothing is reported of a run that has not come away. -/
  silent : e.departed? r d = none → exhaustions r d l = 0
  /-- A run that is away has come away with a result. -/
  away : e.station r d = .away → (e.departed? r d).isSome = true
  /-- A run that arrives can do nothing but begin the first attempt. -/
  starts : e.station r d = .arriving →
    ∃ e', e.moves (.run r) = [e'] ∧ e'.station r d = .trying
  /-- When an attempt has ended, the run can do nothing but come away if that was enough, or if
  the clock does not get any further, and pause otherwise. -/
  handsOver : ∀ x, e.station r d = .handing x →
    ∃ e', e.moves (.run r) = [e'] ∧
      (e.RunsOut r d interval ∨ Enough limit s (attempts r d l) → e'.station r d = .away) ∧
      (¬e.RunsOut r d interval → ¬Enough limit s (attempts r d l) →
        ∃ f, x = .outcome (.err f) ∧ e'.station r d = .pausing f)
  /-- A run that pauses waits for a tick, and can do nothing then but begin the next attempt. -/
  goesOn : ∀ f, e.station r d = .pausing f → e.calledOff r d ctx = false →
    ∃ due, (e.nanos < due → e.moves (.run r) = []) ∧
      (due ≤ e.nanos → ∃ e', e.moves (.run r) = [e'] ∧ e'.station r d = .trying)

/-- **The law of repetition.**  A run comes to a layer that repeats, whatever befell the executor
before and whatever befalls it on the way, but for cancellations of the tokens that the layer
listens to.  The attempts of this visit come to what a sequence says.  Then as many attempts
begin as it takes until one has not failed or no repetition is left, the run comes away with what
the last one has come to, the layer keeps that if it is an outcome and leaves what it has kept
alone if the attempt has unwound, each attempt but the first is counted, and it is reported that
no repetition is left exactly if there is a limit and the last attempt has failed.  Only where
the clock does not get an interval further after the first attempt, the run unwinds there. -/
theorem retries_until_enough
    {e e' : Executor}
    {r : RunId}
    {run : Run}
    {job : Job}
    {ctx : Context}
    {signal : SignalId}
    {limit : Int}
    {interval : Span}
    {l : List (Executor × Executor)}
    (arrival : e.Arrival r run job ctx signal limit interval)
    (path : Path (Visiting r run.stack.length) e l e')
    (undisturbed : ∀ step ∈ l, step.1.calledOff r run.stack.length ctx = false)
    (s : Nat → Result)
    (told : ∀ (i : Nat) (x : Result), (results r run.stack.length l)[i]? = some x →
      s (i + 1) = x) :
    Retries limit interval ctx s r run.job job.task.key run.stack.length l e' := by
  obtain ⟨t, run', job', hstands⟩ :=
    arrival.stands path False (∃ step ∈ l, step.1.RunsOut r run.stack.length interval)
      (fun step hstep h => Bool.false_ne_true ((undisturbed step hstep).symm.trans h))
      (fun step hstep h => ⟨step, hstep, h⟩)
  have hstation := station_of_entry hstands.entry run.stack.length
  have hdeparted := departed?_of_entry hstands.entry run.stack.length
  obtain ⟨signal', last, hlayer⟩ := hstands.layer
  refine
    { counted := hstands.counted
      within := fun m enough => hstands.stage.within told enough
      keeps := hstands.keeps
      departed := ?_
      records := fun o departed => hstands.records arrival path departed
      silent := fun inside => hstands.stage.silent (hdeparted.symm.trans inside)
      away := fun gone => hdeparted ▸ hstands.stage.away (hstation.symm.trans gone)
      starts := fun arriving => moves_of_station_arriving hstands.entry hstands.decorated hlayer
        (hstation.symm.trans arriving)
      handsOver := fun x handing => hstands.stage.moves_handing told hstands.entry
        hstands.decorated hlayer (hstation.symm.trans handing)
      goesOn := fun f pausing undisturbed => hstands.stage.moves_pausing hstands.entry
        (hstation.symm.trans pausing) undisturbed }
  intro x departed
  refine (hstands.stage.departed told (hdeparted.symm.trans departed)).imp_left ?_
  rintro ⟨henough, hx⟩
  exact ⟨⟨henough, fun m hm => hstands.stage.within told hm⟩, hx⟩

/-- A job in a layer that repeats. -/
def repeated
    (limit : Int)
    (interval : Span)
    (key : String)
    (calls : List Attempt) :
    Job :=
  .ofTask [.retry 0 limit interval] ⟨key, .null, ⟨1, none⟩, .ofList calls, 0, none⟩

/-- A run of that job. -/
def arriving : Run :=
  ⟨0, [], .entering ⟨1, none⟩, none, 0, none⟩

/-- The executor on which there is nothing but that job and that run. -/
def onBench
    (limit : Int)
    (interval : Span)
    (key : String)
    (calls : List Attempt) :
    Executor :=
  (bench.addJob [.retry 0 limit interval] key .null (.ofList calls)).1.spawn 0 ⟨1, none⟩ none

theorem arrival_onBench
    (limit : Int)
    (interval : Span)
    (key : String)
    (calls : List Attempt) :
    (onBench limit interval key calls).Arrival 0 arriving (repeated limit interval key calls)
      ⟨1, none⟩ 0 limit interval where
  before := ⟨bench, rfl, rfl, .tail (.single (.act (.change (.addJob key .null (.ofList calls)))))
    (.act (c := []) (.change (.drift (.launch _ _))))⟩
  entry := rfl
  decorated := rfl
  wrapped := rfl
  control := rfl

/-- The job is repeated once, and both calls of its task fail. -/
def fussy : Executor :=
  onBench 1 shortestRetry "fussy" [{ ending := .fail "early" }, { ending := .fail "late" }]

/-- The run makes an attempt, pauses until the tick, and makes another one. -/
def twice : List (Executor × Executor) :=
  let attempt := List.replicate 5 (Incident.move (.run 0) 0)
  undergone (attempt ++ [.clock 100] ++ attempt) fussy

theorem retries_until_enough_twice :
    ∃ job e, fussy.Arrival 0 arriving job ⟨1, none⟩ 0 1 shortestRetry ∧
      Path (Visiting 0 0) fussy twice e ∧
      (twice.all fun step => !step.1.calledOff 0 0 ⟨1, none⟩) = true ∧
      results 0 0 twice = failures [⟨"early", .failed⟩, ⟨"late", .failed⟩] ∧
      exhaustions 0 0 twice = 1 ∧
      Retries 1 shortestRetry ⟨1, none⟩
        (fun i => .outcome (.err ⟨if i = 1 then "early" else "late", .failed⟩)) 0 0 "fussy" 0
        twice e := by
  have harrival := arrival_onBench 1 shortestRetry "fussy"
    [{ ending := .fail "early" }, { ending := .fail "late" }]
  have hpath : Path (Visiting 0 0) fussy twice (terminus fussy twice) :=
    path_visiting _ _ (by simp) (by decide +kernel)
  have hundisturbed : (twice.all fun step => !step.1.calledOff 0 0 ⟨1, none⟩) = true := by
    decide +kernel
  have hresults : results 0 0 twice = failures [⟨"early", .failed⟩, ⟨"late", .failed⟩] := by
    decide +kernel
  refine ⟨_, _, harrival, hpath, hundisturbed, hresults, by decide +kernel,
    retries_until_enough harrival hpath ?_ _ ?_⟩
  · intro step hstep
    change step.1.calledOff 0 0 ⟨1, none⟩ = false
    simpa using List.all_eq_true.1 hundisturbed step hstep
  · intro i x h
    change (results 0 0 twice)[i]? = some x at h
    rw [hresults] at h
    match i with
    | 0 | 1 =>
        cases h
        rfl
    | i + 2 => cases h

/-- The longest interval of whole seconds. -/
def longestRetry : Span :=
  ⟨(wordLimit - 1) * nanosPerSecond, by decide⟩

/-- The job is not repeated, and the call of its task succeeds. -/
def patient : Executor :=
  onBench 0 longestRetry "patient" []

/-- The run makes an attempt. -/
def once : List (Executor × Executor) :=
  undergone (List.replicate 5 (.move (.run 0) 0)) patient

/-- **A success can be lost.**  The first attempt succeeds and no repetition is allowed, but the
clock does not get an interval further: the run unwinds, and nothing is kept. -/
theorem success_lost :
    Wrapper.retry? 0 0 longestRetry = .ok (.retry 0 0 longestRetry) ∧
      ∃ job e, patient.Arrival 0 arriving job ⟨1, none⟩ 0 0 longestRetry ∧
        Path (Visiting 0 0) patient once e ∧
        (once.all fun step => !step.1.calledOff 0 0 ⟨1, none⟩) = true ∧
        results 0 0 once = [.outcome .ok] ∧ e.departed? 0 0 = some (.burst clockOverflow) ∧
        e.keptOutcome 0 0 = none := by
  have hpath : Path (Visiting 0 0) patient once (terminus patient once) :=
    path_visiting _ _ (by simp) (by decide +kernel)
  exact ⟨by decide, _, _, arrival_onBench _ _ _ _, hpath, by decide +kernel, by decide +kernel,
    by decide +kernel, by decide +kernel⟩

end Executor
end Timetable
