import Timetable.Proofs.Executor.Visits

/-!
# How a layer repeats

On a visit to a layer that repeats one attempt after the other begins, until one succeeds or
unwinds, none is left, or a cancellation is heard.  Here it is shown, for every way in which
steps of the run and of everybody else may follow one another, what the run, the layer, the
figures and the log have come to after so many attempts with such results.

Main results:

* an own step of the layer takes a visit from one stage to the next (Stage.round);
* so does whatever befalls the executor (Stage.step), and a path leads from a stage to the
  stage that its attempts and results say (Stage.path).
-/

namespace Timetable

/-- The line that is written when no repetition is left. -/
def Event.isExhaustion : Event → Bool
  | .logged line => line.level == .warn && line.message == "Retries exhausted"
  | _ => false

/-- Failures as results of attempts. -/
def failures (fs : List JobFailure) : List Result :=
  fs.map fun f => .outcome (.err f)

theorem failures_concat
    (fs : List JobFailure)
    (f : JobFailure) :
    failures (fs ++ [f]) = failures fs ++ [.outcome (.err f)] := by
  simp [failures]

@[simp] theorem length_failures (fs : List JobFailure) : (failures fs).length = fs.length :=
  List.length_map _

namespace Executor

variable {e e' : Executor} {r : RunId} {run run' : Run} {job : Job} {d : Nat}

section Observations

/-- An attempt begins in a step. -/
def begins
    (r : RunId)
    (d : Nat)
    (s : Executor × Executor) :
    Bool :=
  s.1.station r d != .trying && s.2.station r d == .trying

/-- The result of the attempt that ends in a step. -/
def ended?
    (r : RunId)
    (d : Nat)
    (s : Executor × Executor) :
    Option Result :=
  if s.1.station r d = .trying then (s.2.station r d).result? else none

/-- A step is one of the layer itself: the run changes, and no attempt is in progress. -/
def isRound
    (r : RunId)
    (d : Nat)
    (s : Executor × Executor) :
    Bool :=
  s.1.runs[r]? != s.2.runs[r]? && s.1.station r d != .trying

/-- The events of a step. -/
def fresh (e e' : Executor) : List Event :=
  e'.journal.events.drop e.journal.events.length

/-- The attempts that begin on a path. -/
def attempts
    (r : RunId)
    (d : Nat)
    (l : List (Executor × Executor)) :
    Nat :=
  l.countP (begins r d)

/-- The results of the attempts that end on a path. -/
def results
    (r : RunId)
    (d : Nat)
    (l : List (Executor × Executor)) :
    List Result :=
  l.filterMap (ended? r d)

/-- The repetitions of a key that the layer counts on a path. -/
def retriesCounted
    (r : RunId)
    (d : Nat)
    (key : String)
    (l : List (Executor × Executor)) :
    Nat :=
  ((l.filter (isRound r d)).map fun s =>
    s.2.tally (.figure (.retries key)) - s.1.tally (.figure (.retries key))).sum

/-- How often the layer reports on a path that no repetition is left. -/
def exhaustions
    (r : RunId)
    (d : Nat)
    (l : List (Executor × Executor)) :
    Nat :=
  ((l.filter (isRound r d)).flatMap fun s => s.1.fresh s.2).countP Event.isExhaustion

/-- The outcome that the layer at a depth of a job keeps. -/
def keptOutcome
    (e : Executor)
    (j : JobId)
    (d : Nat) :
    Option Outcome :=
  (e.layer? j d).bind Layer.last

/-- The outcome with which a run has come away from the layer at a depth. -/
def returned?
    (e : Executor)
    (r : RunId)
    (d : Nat) :
    Option Outcome :=
  (e.departed? r d).bind Result.outcome?

end Observations

/-- The stages of a visit: the token that the run follows, how many attempts have begun, with
which results, and how often it has been reported that no repetition is left.  A visit ends by
a cancellation only where one may be heard, and by an overflow of the clock only where that may
be. -/
inductive Stage
    (cancels overflows : Prop)
    (limit : Int)
    (ctx : Context)
    (below : List Frame) :
    Option TokenId → Nat → List Result → Nat → Run → Prop
  | arriving
      {run : Run}
      (stack : run.stack = below)
      (control : run.control = .entering ctx) :
      Stage cancels overflows limit ctx below none 0 [] 0 run
  | trying
      {run : Run}
      {above : List Frame}
      {fs : List JobFailure}
      {shutdown : TokenId}
      {due : Option Nat}
      (stack : run.stack = above ++ .retry shutdown ctx fs.length due :: below)
      (inside : above ≠ [] ∨ run.control.station = .trying)
      (first : due = none ↔ fs = [])
      (allowed : 0 ≤ limit → (fs.length : Int) ≤ limit) :
      Stage cancels overflows limit ctx below (some shutdown) (fs.length + 1) (failures fs) 0 run
  | handing
      {run : Run}
      {x : Result}
      {fs : List JobFailure}
      {shutdown : TokenId}
      {due : Option Nat}
      (stack : run.stack = .retry shutdown ctx fs.length due :: below)
      (control : run.control.station = .handing x)
      (first : due = none ↔ fs = [])
      (allowed : 0 ≤ limit → (fs.length : Int) ≤ limit) :
      Stage cancels overflows limit ctx below (some shutdown) (fs.length + 1) (failures fs ++ [x])
        0 run
  | pausing
      {run : Run}
      {f : JobFailure}
      {fs : List JobFailure}
      {shutdown : TokenId}
      {due : Nat}
      (stack : run.stack = .retry shutdown ctx fs.length (some due) :: below)
      (control : run.control = .pausing f)
      (more : exhausted limit fs.length = false) :
      Stage cancels overflows limit ctx below (some shutdown) (fs.length + 1)
        (failures fs ++ [.outcome (.err f)]) 0 run
  /-- The last outcome is good, or no repetition is left. -/
  | settled
      {run : Run}
      {o : Outcome}
      {fs : List JobFailure}
      {shutdown : TokenId}
      (stack : run.stack = below)
      (control : run.control = .leaving o)
      (enough : o = .ok ∨ exhausted limit fs.length = true)
      (allowed : 0 ≤ limit → (fs.length : Int) ≤ limit) :
      Stage cancels overflows limit ctx below (some shutdown) (fs.length + 1)
        (failures fs ++ [.outcome o]) (if o = .ok then 0 else 1) run
  /-- A cancellation has ended the repetition. -/
  | stopped
      {run : Run}
      {f : JobFailure}
      {fs : List JobFailure}
      {shutdown : TokenId}
      (cancelled : cancels)
      (stack : run.stack = below)
      (control : run.control = .leaving (.err f))
      (more : exhausted limit fs.length = false) :
      Stage cancels overflows limit ctx below (some shutdown) (fs.length + 1)
        (failures fs ++ [.outcome (.err f)]) 0 run
  | unwound
      {run : Run}
      {p : Payload}
      {fs : List JobFailure}
      {shutdown : TokenId}
      (stack : run.stack = below)
      (control : run.control = .unwinding p)
      (allowed : 0 ≤ limit → (fs.length : Int) ≤ limit) :
      Stage cancels overflows limit ctx below (some shutdown) (fs.length + 1)
        (failures fs ++ [.burst p]) 0 run
  /-- The clock never gets to the first repetition. -/
  | overflowed
      {run : Run}
      {o : Outcome}
      {shutdown : TokenId}
      (never : overflows)
      (stack : run.stack = below)
      (control : run.control = .unwinding clockOverflow) :
      Stage cancels overflows limit ctx below (some shutdown) 1 [.outcome o] 0 run

/-- Where repetitions are left, fewer have been made than the limit. -/
theorem lt_of_not_exhausted
    {limit : Int}
    {m : Nat}
    (more : exhausted limit m = false)
    (limited : 0 ≤ limit) :
    (m : Int) < limit := by
  have hnot : ¬(0 ≤ limit ∧ limit ≤ (m : Int)) := by simpa [exhausted] using more
  omega

section Inversion

variable {cancels overflows : Prop} {limit : Int} {ctx : Context} {below : List Frame}
  {t : Option TokenId} {n k : Nat} {xs : List Result}

/-- No attempt of a run that arrives has begun. -/
theorem Stage.of_arriving
    (stage : Stage cancels overflows limit ctx below t n xs k run)
    (arriving : run.station below.length = .arriving) :
    n = 0 := by
  cases stage with
  | arriving => rfl
  | trying stack inside =>
      rw [Run.station_of_inside stack inside] at arriving
      cases arriving
  | handing stack control | pausing stack control =>
      rw [Run.station_of_top stack rfl, control] at arriving
      cases arriving
  | settled stack control | stopped _ stack control | unwound stack control
  | overflowed _ stack control =>
      obtain ⟨-, ctx', hentering⟩ := Run.of_station_arriving arriving
      rw [control] at hentering
      cases hentering

/-- A run that tries is inside the frame of the layer. -/
theorem Stage.of_trying
    (stage : Stage cancels overflows limit ctx below t n xs k run)
    (trying : run.station below.length = .trying) :
    ∃ (above : List Frame) (f : Frame), run.stack = above ++ f :: below ∧
      (above ≠ [] ∨ run.control.station = .trying) := by
  cases stage with
  | arriving stack | settled stack | stopped _ stack | unwound stack | overflowed _ stack =>
      rcases Run.station_of_out_cases stack with h | h <;> rw [h] at trying <;> cases trying
  | trying stack inside => exact ⟨_, _, stack, inside⟩
  | handing stack control | pausing stack control =>
      rw [Run.station_of_top stack rfl, control] at trying
      cases trying

/-- A run that hands over has the frame of the layer before it, and its failures were followed by
further attempts. -/
theorem Stage.of_handing
    (stage : Stage cancels overflows limit ctx below t n xs k run)
    {x : Result}
    (handing : run.station below.length = .handing x) :
    ∃ (fs : List JobFailure) (shutdown : TokenId) (due : Option Nat),
      run.stack = .retry shutdown ctx fs.length due :: below ∧
      run.control.station = .handing x ∧ (due = none ↔ fs = []) ∧
      (0 ≤ limit → (fs.length : Int) ≤ limit) ∧ n = fs.length + 1 ∧ xs = failures fs ++ [x] := by
  cases stage with
  | arriving stack | settled stack | stopped _ stack | unwound stack | overflowed _ stack =>
      rcases Run.station_of_out_cases stack with h | h <;> rw [h] at handing <;> cases handing
  | trying stack inside =>
      rw [Run.station_of_inside stack inside] at handing
      cases handing
  | pausing stack control =>
      rw [Run.station_of_top stack rfl, control] at handing
      cases handing
  | @handing _ y fs shutdown due stack control first allowed =>
      obtain rfl : y = x := by
        rw [Run.station_of_top stack rfl, control] at handing
        exact Station.handing.inj handing
      exact ⟨fs, shutdown, due, stack, control, first, allowed, rfl, rfl⟩

/-- A run that pauses has the frame of the layer before it, and waits for a tick. -/
theorem Stage.of_pausing
    (stage : Stage cancels overflows limit ctx below t n xs k run)
    {f : JobFailure}
    (pausing : run.station below.length = .pausing f) :
    ∃ (fs : List JobFailure) (shutdown : TokenId) (due : Nat),
      run.stack = .retry shutdown ctx fs.length (some due) :: below ∧ run.control = .pausing f ∧
      exhausted limit fs.length = false ∧ t = some shutdown ∧ n = fs.length + 1 ∧
      xs = failures fs ++ [.outcome (.err f)] ∧ k = 0 := by
  cases stage with
  | arriving stack | settled stack | stopped _ stack | unwound stack | overflowed _ stack =>
      rcases Run.station_of_out_cases stack with h | h <;> rw [h] at pausing <;> cases pausing
  | trying stack inside =>
      rw [Run.station_of_inside stack inside] at pausing
      cases pausing
  | handing stack control =>
      rw [Run.station_of_top stack rfl, control] at pausing
      cases pausing
  | @pausing _ g fs shutdown due stack control more =>
      obtain rfl : g = f := by
        rw [Run.station_of_top stack rfl, control] at pausing
        exact Station.pausing.inj pausing
      exact ⟨fs, shutdown, due, stack, control, more, rfl, rfl, rfl, rfl⟩

/-- A run that comes away does so with the result of the last attempt, and if that has failed and
no cancellation has been heard, no repetition is left; or the clock never gets to the first one. -/
theorem Stage.of_departed
    (stage : Stage cancels overflows limit ctx below t n xs k run)
    {x : Result}
    (departed : run.departed? below.length = some x) :
    (∃ fs : List JobFailure, n = fs.length + 1 ∧ xs = failures fs ++ [x] ∧
        (0 ≤ limit → (fs.length : Int) ≤ limit) ∧
        (¬cancels → (x.failed = true → exhausted limit fs.length = true) ∧
          k = if x.failed = true then 1 else 0)) ∨
      (n = 1 ∧ x = .burst clockOverflow ∧ k = 0 ∧ overflows) := by
  have hcontrol : ∀ {c : Control}, run.control = c → run.stack = below →
      c.station.result? = some x := by
    rintro c rfl hstack
    rwa [Run.departed?, hstack, if_pos rfl] at departed
  cases stage with
  | trying stack =>
      rw [Run.departed?_of_inside _ stack] at departed
      cases departed
  | handing stack | pausing stack =>
      rw [Run.departed?_of_inside [] stack] at departed
      cases departed
  | arriving stack control => cases hcontrol control stack
  | stopped cancelled stack control more =>
      cases hcontrol control stack
      exact Or.inl ⟨_, rfl, rfl, fun hlimit => (lt_of_not_exhausted more hlimit).le,
        fun hnot => absurd cancelled hnot⟩
  | @settled _ o _ _ stack control enough allowed =>
      cases hcontrol control stack
      refine Or.inl ⟨_, rfl, rfl, allowed, fun _ => ?_⟩
      cases o with
      | ok => exact ⟨nofun, rfl⟩
      | err f => exact ⟨fun _ => enough.resolve_left nofun, rfl⟩
  | unwound stack control allowed =>
      cases hcontrol control stack
      exact Or.inl ⟨_, rfl, rfl, allowed, fun _ => ⟨nofun, rfl⟩⟩
  | overflowed never stack control =>
      cases hcontrol control stack
      exact Or.inr ⟨rfl, rfl, rfl, never⟩

end Inversion

/-- A token that ends the repetition is cancelled: that of the context, or the one that the run
follows. -/
def calledOff
    (e : Executor)
    (r : RunId)
    (d : Nat)
    (ctx : Context) :
    Bool :=
  e.isCancelled ctx.token || (e.followed? r d).any e.isCancelled

/-- The first attempt has ended with an outcome so late that the clock never gets an interval
further. -/
def RunsOut
    (e : Executor)
    (r : RunId)
    (d : Nat)
    (interval : Span) :
    Prop :=
  (∃ o, e.station r d = .handing (.outcome o)) ∧
    e.due? r d = none ∧
    clockLimit * nanosPerSecond ≤ e.nanos + interval.nanos

/-- What the layer does in a step of its own: how often it counts a repetition, how often it
reports that none is left, and which outcome it keeps. -/
structure Round
    (e e' : Executor)
    (r : RunId)
    (run' : Run)
    (d : Nat)
    (key : String)
    (again reported : Nat)
    (last : Option Outcome) :
    Prop where
  runs : e'.runs = e.runs.set r run'
  tally : e'.tally (.figure (.retries key)) = e.tally (.figure (.retries key)) + again
  reports : (e.fresh e').countP Event.isExhaustion = reported
  kept : e'.keptOutcome run'.job d = last

/-- Nothing has changed for the runs, and notes have been made that count so many repetitions of a
key and report so often that none is left. -/
structure Notes
    (e e₁ : Executor)
    (key : String)
    (again reported : Nat) :
    Prop where
  runs : e₁.runs = e.runs
  counted : e₁.journal.value (.retries key) = e.journal.value (.retries key) + again
  reports : ∃ events, e₁.journal.events = e.journal.events ++ events ∧
    events.countP Event.isExhaustion = reported

section Notes

variable {e₁ : Executor} {key : String} {again reported : Nat}

theorem notes_refl
    (e : Executor)
    (key : String) :
    e.Notes e key 0 0 :=
  ⟨rfl, rfl, [], (List.append_nil _).symm, rfl⟩

theorem notes_count
    (e : Executor)
    (key : String) :
    e.Notes (e.count (.retries key)) key 1 0 where
  runs := rfl
  counted := by simp [count, note, Event.apply]
  reports := ⟨_, Journal.events_note _ _, rfl⟩

theorem Notes.logRun
    (h : e.Notes e₁ key again reported)
    (run : Run)
    (frames : List Frame)
    (level : Level)
    (message : String)
    (fields : List (String × String)) :
    e.Notes (e₁.logRun run frames level message fields) key again
      (reported + if level = .warn ∧ message = "Retries exhausted" then 1 else 0) where
  runs := h.runs
  counted := (Journal.value_note _ _ _).trans h.counted
  reports := by
    obtain ⟨events, hevents, hcount⟩ := h.reports
    let line : Event :=
      .logged ⟨level, message, ("key", e₁.jobKey run.job) :: fields, innermostSpan frames⟩
    refine ⟨events ++ [line], (Journal.events_note e₁.journal line).trans ?_, ?_⟩
    · rw [hevents, List.append_assoc]
    · rw [List.countP_append, hcount, List.countP_singleton]
      simp [line, Event.isExhaustion]

end Notes

section Rounds

variable {shutdown : TokenId} {ctx : Context} {repeated due : Nat} {below frames : List Frame}
  {signal : SignalId} {limit : Int} {interval : Span} {last : Option Outcome} {e₁ : Executor}
  {key : String} {again reported : Nat}

/-- After such notes the run takes up its way. -/
theorem Notes.resume
    (notes : e.Notes e₁ key again reported)
    (d : Nat)
    (r : RunId)
    (run : Run)
    (frames : List Frame)
    (c : Control) :
    e.Round (e₁.resume r run frames c) r { run with stack := frames, control := c } d key again
      reported (e₁.keptOutcome run.job d) := by
  obtain ⟨events, hevents, hreported⟩ := notes.reports
  refine ⟨congrArg (List.set · r _) notes.runs, notes.counted, ?_, rfl⟩
  show ((e₁.journal.events).drop _).countP _ = _
  rw [hevents, List.drop_left, hreported]

/-- After such notes the run takes up its way without having come away from the layer with an
outcome, which leaves the layer as it is. -/
theorem Notes.onward
    (notes : e.Notes e₁ key again reported)
    (jobs : e₁.jobs = e.jobs)
    (d : Nat)
    (r : RunId)
    (run : Run)
    (frames : List Frame)
    (c : Control)
    (without : (c.station.result?).bind Result.outcome? = none) :
    let run' : Run := { run with stack := frames, control := c }
    e.Round (e₁.resume r run frames c) r run' d key again reported
      (((run'.departed? d).bind Result.outcome?).or (e.keptOutcome run.job d)) := by
  intro run'
  have hnone : (run'.departed? d).bind Result.outcome? = none := by
    unfold Run.departed?
    split
    · exact without
    · rfl
  have hkept : e₁.keptOutcome run.job d = e.keptOutcome run.job d := by
    unfold keptOutcome layer?
    rw [jobs]
  rw [hnone, Option.none_or, ← hkept]
  exact notes.resume d r run frames c

/-- A layer that keeps outcomes keeps the one that it is given. -/
theorem keptOutcome_keepLast
    (decorated : e₁.jobs[run.job]? = some job)
    (layer : job.layers[d]? = some (.retry signal limit interval last))
    (o : Outcome) :
    (e₁.keepLast run d o).keptOutcome run.job d = some o := by
  have hjob : (e₁.keepLast run d o).jobs[run.job]? = some (job.setLast d o) := by
    show (e₁.jobs.modify run.job _)[run.job]? = _
    rw [List.getElem?_modify_eq, decorated]
    rfl
  have hlayer : (job.setLast d o).layers[d]? = some (.retry signal limit interval (some o)) := by
    rw [Job.setLast, List.getElem?_modify_eq, layer]
    rfl
  rw [keptOutcome, layer?, hjob, Option.bind_some, hlayer]
  rfl

/-- After such notes the run leaves the layer, which keeps the outcome. -/
theorem Notes.leave
    (notes : e.Notes e₁ key again reported)
    (decorated : e₁.jobs[run.job]? = some job)
    (layer : job.layers[below.length]? = some (.retry signal limit interval last))
    (r : RunId)
    (o : Outcome) :
    let run' : Run := { run with stack := below, control := .leaving o }
    e.Round ((e₁.keepLast run below.length o).resume r run below (.leaving o)) r run' below.length
      key again reported
      (((run'.departed? below.length).bind Result.outcome?).or
        (e.keptOutcome run.job below.length)) := by
  have hnotes : e.Notes (e₁.keepLast run below.length o) key again reported :=
    ⟨notes.runs, notes.counted, notes.reports⟩
  have hround := hnotes.resume below.length r run below (.leaving o)
  rw [keptOutcome_keepLast decorated layer o] at hround
  simpa [Run.departed?, Control.station, Station.result?, Result.outcome?] using hround

theorem retrySettings_of_layer
    (decorated : e.jobs[run.job]? = some job)
    (layer : job.layers[d]? = some (.retry signal limit interval last)) :
    e.retrySettings run d = (limit, interval.nanos) := by
  simp [retrySettings, layer?, decorated, layer]

/-- A step of the layer takes a visit to another stage: an attempt begins or none does, a
repetition is counted with every attempt but the first, and what the layer keeps is the outcome
with which the run leaves, or else stays. -/
def Advances
    (cancels overflows : Prop)
    (limit : Int)
    (ctx : Context)
    (below : List Frame)
    (t : Option TokenId)
    (n : Nat)
    (xs : List Result)
    (k : Nat)
    (e e' : Executor)
    (r : RunId)
    (run : Run)
    (key : String) :
    Prop :=
  ∃ (run' : Run) (t' : Option TokenId) (again reported : Nat),
    e.Round e' r run' below.length key again reported
      (((run'.departed? below.length).bind Result.outcome?).or
        (e.keptOutcome run.job below.length)) ∧
    run'.job = run.job ∧
    Stage cancels overflows limit ctx below t'
      (n + if run'.station below.length = .trying then 1 else 0) xs (k + reported) run' ∧
    (n + if run'.station below.length = .trying then 1 else 0) - 1 = n - 1 + again ∧
    ∀ u, t = some u → t' = some u

variable {cancels overflows : Prop} {t : Option TokenId} {n k : Nat} {xs : List Result}
  {fs : List JobFailure}

/-- The first attempt begins. -/
theorem advances_arriving
    (entry : e.runs[r]? = some run)
    (decorated : e.jobs[run.job]? = some job)
    (layer : job.layers[below.length]? = some (.retry signal limit interval last))
    (stack : run.stack = below)
    (control : run.control = .entering ctx)
    (move : e' ∈ e.moves (.run r))
    (key : String) :
    Advances cancels overflows limit ctx below none 0 [] 0 e e' r run key := by
  subst stack
  rw [moves_arriving entry decorated control layer] at move
  obtain rfl := List.mem_singleton.1 move
  let run' : Run :=
    { run with stack := .retry (e.signalToken signal) ctx 0 none :: run.stack
               control := .entering ctx }
  have hround := (notes_refl e key).onward rfl run.stack.length r run
    (.retry (e.signalToken signal) ctx 0 none :: run.stack) (.entering ctx) rfl
  have hstation : run'.station run.stack.length = .trying := Run.station_of_top rfl rfl
  have hstack : run'.stack =
      [] ++ .retry (e.signalToken signal) ctx ([] : List JobFailure).length none :: run.stack := rfl
  refine ⟨run', some (e.signalToken signal), 0, 0, hround, rfl, ?_, ?_, by simp⟩
  · rw [hstation, if_pos rfl]
    exact .trying hstack (Or.inr rfl) (by simp) (by simp)
  · rw [hstation, if_pos rfl]

/-- An attempt has ended with an outcome, and the run leaves, pauses, or finds that the clock
runs out. -/
theorem advances_handing
    {o : Outcome}
    {due : Option Nat}
    (entry : e.runs[r]? = some run)
    (decorated : e.jobs[run.job]? = some job)
    (layer : job.layers[below.length]? = some (.retry signal limit interval last))
    (stack : run.stack = .retry shutdown ctx fs.length due :: below)
    (control : run.control = .leaving o)
    (first : due = none ↔ fs = [])
    (allowed : 0 ≤ limit → (fs.length : Int) ≤ limit)
    (move : e' ∈ e.moves (.run r))
    (never : e.RunsOut r below.length interval → overflows)
    (key : String) :
    Advances cancels overflows limit ctx below (some shutdown) (fs.length + 1)
      (failures fs ++ [.outcome o]) 0 e e' r run key := by
  rw [moves_handing entry control stack] at move
  obtain rfl := List.mem_singleton.1 move
  have hsettings := retrySettings_of_layer decorated layer
  have haway : ∀ {run' : Run} {c : Control}, run'.stack = below → run'.control = c →
      (∀ ctx, c ≠ .entering ctx) → run'.station below.length = .away :=
    fun hstack hcontrol hc => Run.station_of_left hstack fun ctx h => hc ctx (hcontrol ▸ h)
  have hhanding : e.station r below.length = .handing (.outcome o) := by
    rw [station_of_entry entry, Run.station_of_top stack rfl, control]
    rfl
  simp only [attemptEnded, hsettings]
  split
  · rename_i hnone
    obtain ⟨hdue, htick⟩ := Option.or_eq_none_iff.1 hnone
    obtain rfl := first.1 hdue
    have hnever : overflows := by
      refine never ⟨⟨_, hhanding⟩, ?_, ?_⟩
      · exact (due?_of_top entry stack).trans hdue
      unfold firstTick? at htick
      split at htick
      · cases htick
      · exact Nat.le_of_not_lt ‹_›
    let run' : Run := { run with stack := below, control := .unwinding clockOverflow }
    have hstation : run'.station below.length = .away := haway rfl rfl (by simp)
    refine ⟨run', some shutdown, 0, 0,
      (notes_refl e key).onward rfl below.length r run below _ rfl, rfl, ?_, ?_, fun _ => id⟩
    · rw [hstation]
      exact .overflowed hnever rfl rfl
    · rw [hstation]
      rfl
  · let run' : Run := { run with stack := below, control := .leaving .ok }
    have hstation : run'.station below.length = .away := haway rfl rfl (by simp)
    refine ⟨run', some shutdown, 0, 0, (notes_refl e key).leave decorated layer r .ok, rfl, ?_, ?_,
      fun _ => id⟩
    · rw [hstation]
      exact .settled rfl rfl (Or.inl rfl) allowed
    · rw [hstation]
      rfl
  · rename_i next f htick
    split
    · rename_i hexhausted
      let run' : Run := { run with stack := below, control := .leaving (.err f) }
      have hstation : run'.station below.length = .away := haway rfl rfl (by simp)
      refine ⟨run', some shutdown, 0, 1,
        ((notes_refl e key).logRun run below .warn "Retries exhausted" _).leave decorated layer r
          (.err f), rfl, ?_, ?_, fun _ => id⟩
      · rw [hstation]
        exact .settled (o := .err f) rfl rfl (Or.inr hexhausted) allowed
      · rw [hstation]
        rfl
    · rename_i hmore
      let run' : Run :=
        { run with stack := .retry shutdown ctx fs.length (some next) :: below
                   control := .pausing f }
      have hstation : run'.station below.length = .pausing f := Run.station_of_top rfl rfl
      refine ⟨run', some shutdown, 0, 0,
        (notes_refl e key).onward rfl below.length r run _ _ rfl, rfl, ?_, ?_, fun _ => id⟩
      · rw [hstation]
        exact .pausing rfl rfl (by simpa using hmore)
      · rw [hstation]
        rfl

/-- An attempt has unwound, and the run unwinds on. -/
theorem advances_bursting
    {p : Payload}
    {due : Option Nat}
    (entry : e.runs[r]? = some run)
    (stack : run.stack = .retry shutdown ctx fs.length due :: below)
    (control : run.control = .unwinding p)
    (allowed : 0 ≤ limit → (fs.length : Int) ≤ limit)
    (move : e' ∈ e.moves (.run r))
    (key : String) :
    Advances cancels overflows limit ctx below (some shutdown) (fs.length + 1)
      (failures fs ++ [.burst p]) 0 e e' r run key := by
  rw [moves_bursting entry control stack] at move
  obtain rfl := List.mem_singleton.1 move
  let run' : Run := { run with stack := below, control := .unwinding p }
  have hstation : run'.station below.length = .away := Run.station_of_left rfl (by simp [run'])
  refine ⟨run', some shutdown, 0, 0,
    (notes_refl e key).onward rfl below.length r run below _ rfl, rfl, ?_, ?_, fun _ => id⟩
  · rw [hstation]
    exact .unwound rfl rfl allowed
  · rw [hstation]
    rfl

/-- After a pause the next attempt begins, or a cancellation is heard. -/
theorem advances_pausing
    {f : JobFailure}
    {due : Nat}
    (entry : e.runs[r]? = some run)
    (decorated : e.jobs[run.job]? = some job)
    (layer : job.layers[below.length]? = some (.retry signal limit interval last))
    (stack : run.stack = .retry shutdown ctx fs.length (some due) :: below)
    (control : run.control = .pausing f)
    (more : exhausted limit fs.length = false)
    (move : e' ∈ e.moves (.run r))
    (cancelled : e.calledOff r below.length ctx = true → cancels) :
    Advances cancels overflows limit ctx below (some shutdown) (fs.length + 1)
      (failures fs ++ [.outcome (.err f)]) 0 e e' r run job.task.key := by
  have hkey : e.jobKey run.job = job.task.key := by simp [jobKey, decorated]
  have hstop : ∀ reason, cancels → Advances cancels overflows limit ctx below (some shutdown)
      (fs.length + 1) (failures fs ++ [.outcome (.err f)]) 0 e
      (e.stopRepeating r run below fs.length f reason) r run job.task.key := by
    intro reason hcancels
    let run' : Run := { run with stack := below, control := .leaving (.err f) }
    have hstation : run'.station below.length = .away := Run.station_of_left rfl (by simp [run'])
    refine ⟨run', some shutdown, 0, 0,
      ((notes_refl e job.task.key).logRun run below .debug ("Retry cancelled by " ++ reason)
        _).leave decorated layer r (.err f), rfl, ?_, ?_, fun _ => id⟩
    · rw [hstation]
      exact .stopped hcancels rfl rfl more
    · rw [hstation]
      rfl
  have hfollowed : e.followed? r below.length = some shutdown := followed?_of_top entry stack
  rcases (mem_moves_pausing_iff _ entry control stack).1 move with
    ⟨-, rfl⟩ | ⟨hcancelled, rfl⟩ | ⟨hcancelled, rfl⟩
  · let next := nextTick e.nanos due (e.retrySettings run below.length).2
    let run' : Run :=
      { run with stack := .retry shutdown ctx (fs.length + 1) (some next) :: below
                 control := .entering ctx }
    have hstation : run'.station below.length = .trying := Run.station_of_top rfl rfl
    have hcount : e.Notes (e.count (.retries (e.jobKey run.job))) job.task.key 1 0 := by
      rw [hkey]
      exact notes_count e job.task.key
    have hnotes := hcount.logRun run below .debug "Retrying job"
      [("attempt", Text.numeral (fs.length + 1)), ("error", f.display)]
    have hstack : run'.stack =
        [] ++ .retry shutdown ctx (fs ++ [f]).length (some next) :: below := by
      simp [run']
    have hround := hnotes.onward rfl below.length r run
      (.retry shutdown ctx (fs.length + 1) (some next) :: below) (.entering ctx) rfl
    refine ⟨run', some shutdown, 1, 0, hround, rfl, ?_, ?_, fun _ => id⟩
    · rw [hstation, if_pos rfl, ← failures_concat]
      have hlength : fs.length + 1 = (fs ++ [f]).length := by simp
      rw [hlength]
      refine .trying hstack (Or.inr rfl) (by simp) fun hlimit => ?_
      simpa using lt_of_not_exhausted more hlimit
    · rw [hstation, if_pos rfl]
      rfl
  · refine hstop _ (cancelled ?_)
    rw [calledOff, hfollowed, Option.any_some, hcancelled, Bool.or_true]
  · refine hstop _ (cancelled ?_)
    rw [calledOff, hcancelled, Bool.true_or]

end Rounds

section Steps

variable {ctx : Context} {below : List Frame} {signal : SignalId} {limit : Int} {interval : Span}
  {last : Option Outcome} {cancels overflows : Prop} {t : Option TokenId} {n k : Nat}
  {xs : List Result} {l l' : List (Executor × Executor)} {j : JobId} {key : String}

/-- **An own step of the layer takes a visit from one stage to the next.** -/
theorem Stage.round
    (stage : Stage cancels overflows limit ctx below t n xs k run)
    (entry : e.runs[r]? = some run)
    (decorated : e.jobs[run.job]? = some job)
    (layer : job.layers[below.length]? = some (.retry signal limit interval last))
    (present : run.station below.length ≠ .away)
    (idle : run.station below.length ≠ .trying)
    (move : e' ∈ e.moves (.run r))
    (cancelled : e.calledOff r below.length ctx = true → cancels)
    (never : e.RunsOut r below.length interval → overflows) :
    Advances cancels overflows limit ctx below t n xs k e e' r run job.task.key := by
  have hgone : ∀ {c : Control}, run.stack = below → run.control = c →
      (∀ ctx, c ≠ .entering ctx) → run.station below.length = .away :=
    fun hstack hcontrol hc => Run.station_of_left hstack fun ctx h => hc ctx (hcontrol ▸ h)
  cases stage with
  | arriving stack control => exact advances_arriving entry decorated layer stack control move _
  | trying stack inside => exact absurd (Run.station_of_inside stack inside) idle
  | @handing _ x _ _ _ stack control first allowed =>
      cases hcontrol : run.control with
      | leaving o =>
          rw [hcontrol] at control
          cases control
          exact advances_handing entry decorated layer stack hcontrol first allowed move never _
      | unwinding p =>
          rw [hcontrol] at control
          cases control
          exact advances_bursting entry stack hcontrol allowed move _
      | _ =>
          rw [hcontrol] at control
          cases control
  | pausing stack control more =>
      exact advances_pausing entry decorated layer stack control more move cancelled
  | settled stack control | stopped _ stack control | unwound stack control
  | overflowed _ stack control => exact absurd (hgone stack control (by simp)) present

/-- A stage knows the token that the run follows. -/
theorem Stage.followed
    (stage : Stage cancels overflows limit ctx below t n xs k run)
    {u : TokenId}
    (followed : run.shutdown? below.length = some u) :
    t = some u := by
  cases stage with
  | trying stack =>
      rw [Run.shutdown?_of_stack _ stack rfl] at followed
      exact followed
  | handing stack | pausing stack =>
      rw [Run.shutdown?_of_stack [] stack rfl] at followed
      exact followed
  | arriving stack | settled stack | stopped _ stack | unwound stack | overflowed _ stack =>
      rw [Run.shutdown?_of_out stack rfl] at followed
      cases followed

/-- So it does of every step that leads to it. -/
theorem Stage.tokens
    (stage : Stage cancels overflows limit ctx below t n xs k run)
    (entry : e'.runs[r]? = some run)
    (s : Executor × Executor)
    (hs : s ∈ [(e, e')])
    (u : TokenId)
    (followed : s.2.followed? r below.length = some u) :
    t = some u := by
  obtain rfl := List.mem_singleton.1 hs
  exact stage.followed ((followed?_of_entry entry _).symm.trans followed)

theorem attempts_append : attempts r d (l ++ l') = attempts r d l + attempts r d l' :=
  List.countP_append

theorem results_append : results r d (l ++ l') = results r d l ++ results r d l' :=
  List.filterMap_append

theorem exhaustions_append :
    exhaustions r d (l ++ l') = exhaustions r d l + exhaustions r d l' := by
  simp [exhaustions]

theorem retriesCounted_append :
    retriesCounted r d key (l ++ l') = retriesCounted r d key l + retriesCounted r d key l' := by
  simp [retriesCounted]

/-- Steps lead a visit on from a stage: what is seen on them has come to what was there. -/
structure Leads
    (cancels overflows : Prop)
    (limit : Int)
    (ctx : Context)
    (below : List Frame)
    (r : RunId)
    (j : JobId)
    (key : String)
    (t : Option TokenId)
    (n : Nat)
    (xs : List Result)
    (k : Nat)
    (l : List (Executor × Executor))
    (e' : Executor)
    (t' : Option TokenId)
    (run' : Run) :
    Prop where
  entry : e'.runs[r]? = some run'
  job : run'.job = j
  stage : Stage cancels overflows limit ctx below t' (n + attempts r below.length l)
    (xs ++ results r below.length l) (k + exhaustions r below.length l) run'
  counted : n + attempts r below.length l - 1 = n - 1 + retriesCounted r below.length key l
  follows : ∀ u, t = some u → t' = some u
  tokens : ∀ s ∈ l, ∀ u, s.2.followed? r below.length = some u → t' = some u
  keeps : ∀ s ∈ l, s.1.runs[r]? ≠ s.2.runs[r]? →
    s.2.keptOutcome j below.length =
      (s.2.returned? r below.length).or (s.1.keptOutcome j below.length)

theorem Leads.trans
    {e₁ e₂ : Executor}
    {t₁ t₂ : Option TokenId}
    {run₁ run₂ : Run}
    (h : Leads cancels overflows limit ctx below r j key t n xs k l e₁ t₁ run₁)
    (h' : Leads cancels overflows limit ctx below r j key t₁ (n + attempts r below.length l)
      (xs ++ results r below.length l) (k + exhaustions r below.length l) l' e₂ t₂ run₂) :
    Leads cancels overflows limit ctx below r j key t n xs k (l ++ l') e₂ t₂ run₂ where
  entry := h'.entry
  job := h'.job
  stage := by
    rw [attempts_append, results_append, exhaustions_append, ← Nat.add_assoc, ← List.append_assoc,
      ← Nat.add_assoc]
    exact h'.stage
  counted := by
    rw [attempts_append, retriesCounted_append, ← Nat.add_assoc, h'.counted, h.counted]
    omega
  follows := fun u hu => h'.follows u (h.follows u hu)
  tokens := fun s hs u hu =>
    (List.mem_append.1 hs).elim (fun hs => h'.follows u (h.tokens s hs u hu))
      fun hs => h'.tokens s hs u hu
  keeps := fun s hs => (List.mem_append.1 hs).elim (h.keeps s) (h'.keeps s)

/-- While the run stands still, nothing is seen of its visit. -/
theorem leads_still
    (stage : Stage cancels overflows limit ctx below t n xs k run)
    (entry : e.runs[r]? = some run)
    (entry' : e'.runs[r]? = some run) :
    Leads cancels overflows limit ctx below r run.job key t n xs k [(e, e')] e' t run := by
  have hstation : e'.station r below.length = e.station r below.length := by
    rw [station_of_entry entry, station_of_entry entry']
  have hattempts : attempts r below.length [(e, e')] = 0 := by
    simp [attempts, begins, hstation]
  have hresults : results r below.length [(e, e')] = [] := by
    unfold results ended?
    by_cases htrying : e.station r below.length = .trying <;>
      simp [hstation, htrying, Station.result?]
  have hround : isRound r below.length (e, e') = false := by simp [isRound, entry, entry']
  refine ⟨entry', rfl, ?_, ?_, fun _ => id, stage.tokens entry', ?_⟩
  · simpa [hattempts, hresults, exhaustions, hround] using stage
  · simp [hattempts, retriesCounted, hround]
  · intro s hs hmoved
    obtain rfl := List.mem_singleton.1 hs
    exact absurd (entry.trans entry'.symm) hmoved

/-- A step of the layer itself is seen as what it does. -/
theorem leads_round
    (entry : e.runs[r]? = some run)
    (idle : run.station below.length ≠ .trying)
    (moved : e.runs[r]? ≠ e'.runs[r]?)
    (h : Advances cancels overflows limit ctx below t n xs k e e' r run key) :
    ∃ t' run', Leads cancels overflows limit ctx below r run.job key t n xs k [(e, e')] e' t'
      run' := by
  obtain ⟨run', t', again, reported, hround, hjob, hstage, hcounted, hfollows⟩ := h
  have hlt : r < e.runs.length := (List.getElem?_eq_some_iff.1 entry).1
  have hentry : e'.runs[r]? = some run' := by rw [hround.runs, List.getElem?_set_self hlt]
  have hstation := station_of_entry entry below.length
  have hstation' := station_of_entry hentry below.length
  have hown : isRound r below.length (e, e') = true := by simp [isRound, moved, hstation, idle]
  have hattempts : attempts r below.length [(e, e')] =
      if run'.station below.length = .trying then 1 else 0 := by
    simp [attempts, begins, hstation, hstation', idle, List.countP_singleton]
  have hresults : results r below.length [(e, e')] = [] := by
    simp [results, ended?, hstation, idle]
  have hexhaustions : exhaustions r below.length [(e, e')] = reported := by
    simpa [exhaustions, hown] using hround.reports
  have hretries : retriesCounted r below.length key [(e, e')] = again := by
    simp [retriesCounted, hown, hround.tally]
  refine ⟨t', run', hentry, hjob, ?_, ?_, hfollows, hstage.tokens hentry, ?_⟩
  · rw [hattempts, hresults, hexhaustions, List.append_nil]
    exact hstage
  · rw [hattempts, hretries]
    exact hcounted
  · intro s hs hmoved
    obtain rfl := List.mem_singleton.1 hs
    rw [returned?, departed?_of_entry hentry, ← hjob]
    exact hround.kept.trans (by rw [hjob])

/-- A step further inside leaves the attempt in progress, or ends it. -/
theorem leads_trying
    (stage : Stage cancels overflows limit ctx below t n xs k run)
    (entry : e.runs[r]? = some run)
    (decorated : e.jobs[run.job]? = some job)
    (trying : run.station below.length = .trying)
    (move : e' ∈ e.moves (.run r)) :
    ∃ run', Leads cancels overflows limit ctx below r run.job key t n xs k [(e, e')] e' t run' := by
  obtain ⟨run', job', signs, hwalked⟩ := walked_of_mem_runMoves entry decorated move
  have hentry := hwalked.entry entry
  have hstation := station_of_entry entry below.length
  have hstation' := station_of_entry hentry below.length
  have hout : run.stack ≠ below := by
    intro hstack
    rw [Run.station_of_out hstack rfl] at trying
    split at trying <;> cases trying
  cases stage with
  | arriving stack | settled stack | stopped _ stack | unwound stack | overflowed _ stack =>
      exact absurd stack hout
  | handing stack control | pausing stack control =>
      rw [Run.station_of_top stack rfl, control] at trying
      cases trying
  | @trying _ above fs shutdown due stack inside first allowed =>
      have hkept : e'.keptOutcome run.job below.length = e.keptOutcome run.job below.length := by
        have hlt := (List.getElem?_eq_some_iff.1 decorated).1
        simp [keptOutcome, layer?, hwalked.jobs, List.getElem?_set_self hlt, decorated,
          hwalked.walk.layer_below stack inside]
      have hattempts : attempts r below.length [(e, e')] = 0 := by
        simp [attempts, begins, hstation, trying]
      have hround : isRound r below.length (e, e') = false := by
        simp [isRound, hstation, trying]
      have hleads : Stage cancels overflows limit ctx below (some shutdown) (fs.length + 1)
            (failures fs ++ results r below.length [(e, e')]) 0 run' →
          run'.departed? below.length = none →
          Leads cancels overflows limit ctx below r run.job key (some shutdown) (fs.length + 1)
            (failures fs) 0 [(e, e')] e' (some shutdown) run' := by
        intro hstage hinside
        refine ⟨hentry, hwalked.walk.job, ?_, ?_, fun _ => id, hstage.tokens hentry, ?_⟩
        · rw [hattempts, exhaustions, List.filter_singleton, hround]
          exact hstage
        · simp [hattempts, retriesCounted, hround]
        · intro s hs _
          obtain rfl := List.mem_singleton.1 hs
          rw [returned?, departed?_of_entry hentry, hinside, Option.bind_none, Option.none_or]
          exact hkept
      refine ⟨run', ?_⟩
      rcases hwalked.walk.tries stack inside with
        ⟨above', hstack', hinside'⟩ | ⟨hstack', x, hx⟩
      · refine hleads ?_ (Run.departed?_of_inside above' hstack')
        have hresults : results r below.length [(e, e')] = [] := by
          simp [results, ended?, hstation, trying, hstation',
            Run.station_of_inside hstack' hinside', Station.result?]
        rw [hresults, List.append_nil]
        exact .trying hstack' hinside' first allowed
      · refine hleads ?_ (Run.departed?_of_inside [] hstack')
        have hresults : results r below.length [(e, e')] = [x] := by
          simp [results, ended?, hstation, trying, hstation', Run.station_of_top hstack' rfl, hx,
            Station.result?]
        rw [hresults]
        exact .handing hstack' hx first allowed

/-- **Whatever befalls the executor takes a visit from one stage to the next.** -/
theorem Stage.step
    (stage : Stage cancels overflows limit ctx below t n xs k run)
    (entry : e.runs[r]? = some run)
    (decorated : e.jobs[run.job]? = some job)
    (layer : job.layers[below.length]? = some (.retry signal limit interval last))
    (visiting : Visiting r below.length e e')
    (cancelled : e.calledOff r below.length ctx = true → cancels)
    (never : e.RunsOut r below.length interval → overflows) :
    ∃ t' run', Leads cancels overflows limit ctx below r run.job job.task.key t n xs k [(e, e')] e'
      t' run' := by
  have hpresent : run.station below.length ≠ .away := by
    rw [← station_of_entry entry]
    exact visiting.2
  rcases visiting.1.own entry with hstill | hmove
  · exact ⟨t, run, leads_still stage entry hstill⟩
  by_cases htrying : run.station below.length = .trying
  · exact ⟨t, leads_trying stage entry decorated htrying hmove⟩
  · obtain ⟨run', job', signs, hwalked⟩ := walked_of_mem_runMoves entry decorated hmove
    have hmoved : e.runs[r]? ≠ e'.runs[r]? := by
      rw [hwalked.entry entry, entry]
      exact fun h => hwalked.walk.moved (Option.some.inj h).symm
    exact leads_round entry htrying hmoved
      (stage.round entry decorated layer hpresent htrying hmove cancelled never)

/-- The job of a run keeps its layers and its key while something befalls the executor. -/
theorem Befalls.keeps_job
    (befalls : e.Befalls e')
    (orderly : e.Orderly)
    (decorated : e.jobs[j]? = some job) :
    ∃ job', e'.jobs[j]? = some job' ∧ job'.chain = job.chain ∧ job'.task.key = job.task.key := by
  obtain ⟨job', hjob', hchain⟩ := (befalls.episode orderly.rooted).chain orderly decorated
  refine ⟨job', hjob', hchain, ?_⟩
  have hkey : e'.jobKey j = e.jobKey j := by
    cases befalls with
    | cancel => rfl
    | act h => exact h.later.keys j (List.getElem?_eq_some_iff.1 decorated).1
  simpa [jobKey, hjob', decorated] using hkey

/-- A job keeps its chain and its key, whatever occurs. -/
theorem Occurs.keeps_job
    (occurs : e.Occurs e')
    (orderly : e.Orderly)
    (decorated : e.jobs[j]? = some job) :
    ∃ job', e'.jobs[j]? = some job' ∧ job'.chain = job.chain ∧ job'.task.key = job.task.key := by
  cases occurs with
  | befalls h => exact h.keeps_job orderly decorated
  | @drop r run own entry hown =>
      rcases dropped_of_dropRun entry hown with ⟨-, hsame⟩ | hdropped
      · rw [hsame]
        exact ⟨job, decorated, rfl, rfl⟩
      · have hfits := orderly.fits run (List.mem_of_getElem? entry) own hown
        rw [hdropped.jobs]
        exact keeps_set (R := fun a b => b.chain = a.chain ∧ b.task.key = a.task.key)
          (fun _ => ⟨rfl, rfl⟩) hown
          ⟨Job.chain_dropped hfits r, congrArg Task.key (own.task_dropped r run)⟩ decorated

/-- **Along every path a visit comes to the stage that its attempts and results say.** -/
theorem Stage.path
    (stage : Stage cancels overflows limit ctx below t n xs k run)
    (entry : e.runs[r]? = some run)
    (orderly : e.Orderly)
    (decorated : e.jobs[run.job]? = some job)
    (wrapped : job.chain[below.length]? = some (.retry signal limit interval))
    (path : Path (Visiting r below.length) e l e')
    (cancelled : ∀ s ∈ l, s.1.calledOff r below.length ctx = true → cancels)
    (never : ∀ s ∈ l, s.1.RunsOut r below.length interval → overflows) :
    (∃ t' run', Leads cancels overflows limit ctx below r run.job job.task.key t n xs k l e' t'
      run') ∧
    e'.Orderly ∧ ∃ job', e'.jobs[run.job]? = some job' ∧ job'.chain = job.chain ∧
      job'.task.key = job.task.key := by
  induction path with
  | start =>
      refine ⟨⟨t, run, entry, rfl, ?_, rfl, fun _ => id, by simp, by simp⟩, orderly, job, decorated,
        rfl, rfl⟩
      simpa [attempts, results, exhaustions] using stage
  | @next l d d' path last ih =>
      obtain ⟨⟨t₁, run₁, hleads⟩, horderly, job₁, hjob₁, hchain, hkey⟩ :=
        ih (fun s hs => cancelled s (List.mem_append_left _ hs))
          (fun s hs => never s (List.mem_append_left _ hs))
      obtain ⟨layer, hlayer, hwrapper⟩ := Job.exists_layer (hchain ▸ wrapped)
      cases layer with
      | retry signal' limit' interval' last' =>
          cases hwrapper
          have hmem : (d, d') ∈ l ++ [(d, d')] := List.mem_concat_self
          rw [← hleads.job] at hjob₁
          obtain ⟨t₂, run₂, hstep⟩ := hleads.stage.step hleads.entry hjob₁ hlayer last
            (cancelled _ hmem) (never _ hmem)
          rw [hleads.job] at hjob₁ hstep
          rw [hkey] at hstep
          obtain ⟨job₂, hjob₂, hchain', hkey'⟩ := last.1.keeps_job horderly hjob₁
          exact ⟨⟨t₂, run₂, hleads.trans hstep⟩, horderly.befell (.single last.1), job₂, hjob₂,
            hchain'.trans hchain, hkey'.trans hkey⟩
      | _ => cases hwrapper

end Steps

end Executor
end Timetable
