import Timetable.Proofs.Registry.Service

/-!
# Nothing is lost between the engine and the calls

A registry that follows a configuration is attended when its operations are performed
and its executor is in service in between.  Then every activation of a key becomes a
call or is skipped, every repetition becomes one call more, and every run leaves one
duration at the barrier, whatever the order in which the runs of the key move, fail,
unwind or are cancelled, and however often the key is registered again.

Main results:

* every operation of a registry is service (serves_perform);
* whatever an attended registry does to its executor is service (Attends.serves);
* the figures of a key with no run in progress add up (activations_conserved).
-/

namespace Timetable
namespace Registry

open Executor (Serve Serves Booked)

section Perform

variable (g : Registry)

theorem chain_replace (key : String) : (g.replace key).chain = g.chain := by
  unfold replace
  split <;> rfl

theorem serves_replace (key : String) :
    Serves g.chain g.executor (g.replace key).executor := by
  unfold replace
  split
  · exact .refl
  · exact .tail (.single (.close _)) (.note _ rfl)

theorem serves_register
    (key : String)
    (value : Value)
    (script : Script)
    (schedule : Schedule) :
    Serves g.chain g.executor (g.register key value script schedule).executor := by
  have hregister : Serves (g.replace key).chain (g.replace key).executor
      (g.register key value script schedule).executor :=
    .tail (.tail (.single (.enlist key value script schedule _)) (.note _ rfl)) (.note _ rfl)
  rw [chain_replace] at hregister
  exact (g.serves_replace key).trans hregister

theorem serves_add
    (key : String)
    (value : Value)
    (script : Script)
    (schedule : Schedule) :
    Serves g.chain g.executor (g.add key value script schedule).2.executor := by
  have hnoted : Serves g.chain g.executor (g.executor.noteAll schedule.validate.events) :=
    Executor.serves_noteAll _ fun event hevent =>
      Event.key?_of_fault (Or.inr (Schedule.fault_of_mem_validate hevent))
  unfold add
  split
  · exact .refl
  · dsimp only
    split
    · exact hnoted
    · exact hnoted.tail (.note _ rfl)
    · let noted := g.onExecutor (·.noteAll schedule.validate.events)
      exact hnoted.trans (noted.serves_register key value script _)

theorem serves_addText
    (key : String)
    (value : Value)
    (script : Script)
    (text : String) :
    Serves g.chain g.executor (g.addText key value script text).2.executor := by
  unfold addText
  split
  · exact .tail (.single (.note _ rfl)) (.note _ rfl)
  · exact .refl
  · exact g.serves_add _ _ _ _

theorem serves_remove (key : String) :
    Serves g.chain g.executor (g.remove key).2.executor := by
  unfold Registry.remove
  split
  · exact .refl
  · exact .tail (.tail (.single (.close _)) (.note _ rfl)) (.note _ rfl)

theorem serves_start : Serves g.chain g.executor g.start.executor := by
  unfold start
  split
  · exact .refl
  · exact .tail (.tail (.single (.rearm _)) .startEngine) (.note _ rfl)

theorem serves_halt : Serves g.chain g.executor g.halt.executor :=
  .tail (.single .stopEngine) (.cancel _)

theorem serves_forceStop : Serves g.chain g.executor g.forceStop.executor := by
  unfold forceStop
  split
  · exact g.serves_halt.tail (.note _ rfl)
  · exact .refl

theorem serves_waitFor
    (c : Chain)
    (e : Executor)
    (trackers : List TrackerId)
    (farewell : Option LogLine)
    (limit : Nat) :
    Serves c e (e.waitFor trackers farewell limit).1 := by
  have hawait : Serves c e (e.await trackers farewell).1 :=
    Executor.Ticks.serves (e.ticks_await trackers farewell)
  rcases e.ticks_waitFor trackers farewell limit with ⟨-, -, h⟩ | ⟨-, e₁, h, h'⟩
  · exact hawait.trans (Executor.Ticks.serves h)
  · exact ((hawait.trans (Executor.Ticks.serves h)).tail (.giveUp _)).trans
      (Executor.Ticks.serves h')

theorem serves_stop (limit : Nat) : Serves g.chain g.executor (g.stop limit).1.executor := by
  unfold stop
  split
  · dsimp only
    refine Relation.ReflTransGen.trans ?_ (serves_waitFor _ _ _ _ _)
    split
    · exact g.serves_halt.tail (.note _ rfl)
    · exact g.serves_halt
  · exact .refl

/-- **Every operation of a registry is service.** -/
theorem serves_perform (o : Operation) :
    Serves g.chain g.executor (o.perform g).executor := by
  cases o with
  | add key value script schedule => exact g.serves_add key value script schedule
  | addText key value script text => exact g.serves_addText key value script text
  | remove key => exact g.serves_remove key
  | contains key =>
      show Serves g.chain g.executor (g.contains key).2.executor
      unfold Registry.contains
      split
      · exact .refl
      · split <;> exact .refl
  | size | keys => exact .refl
  | start => exact g.serves_start
  | stop limit => exact g.serves_stop limit
  | forceStop => exact g.serves_forceStop

end Perform

/-- An operation of the registry is performed, or its executor is in service. -/
inductive Attend (g : Registry) : Registry → Prop
  | perform (o : Operation) : Attend g (o.perform g)
  | serve
      {e : Executor}
      (h : Serve g.chain g.executor e) :
      Attend g (g.within e)

/-- A registry comes to another state while nobody starts a run by hand. -/
abbrev Attends : Registry → Registry → Prop :=
  Relation.ReflTransGen Attend

theorem attends_of_serves
    (g : Registry)
    {e : Executor}
    (h : Serves g.chain g.executor e) :
    g.Attends (g.within e) := by
  induction h with
  | refl => exact .refl
  | tail _ hserve ih => exact ih.tail (.serve hserve)

theorem Attends.serves
    {g g' : Registry}
    (h : g.Attends g') :
    g'.chain = g.chain ∧ Serves g.chain g.executor g'.executor := by
  induction h with
  | refl => exact ⟨rfl, .refl⟩
  | @tail h₁ h₂ _ hattend ih =>
      obtain ⟨hchain, hserves⟩ := ih
      rw [← hchain] at hserves ⊢
      cases hattend with
      | perform o =>
          exact ⟨(h₁.reaches_perform o).chain_eq.1, hserves.trans (h₁.serves_perform o)⟩
      | serve h => exact ⟨rfl, hserves.tail h⟩

/-- Nothing has been done with the executor yet, and nothing has been counted under a key. -/
structure Unused (e : Executor) : Prop where
  jobs : e.jobs = []
  runs : e.runs = []
  timers : e.timers = []
  calls : e.calls = []
  figures : ∀ m key, Metric.key? m = some key → e.journal.value m = 0

theorem Unused.booked
    {e : Executor}
    (unused : Unused e)
    (c : Chain) :
    Booked c e := by
  have htally : ∀ s key, Sign.key? s = some key → e.tally s = 0 := by
    intro s key hs
    cases s with
    | call key => simp [Executor.tally, unused.calls]
    | figure m => exact unused.figures m key hs
  have hbalanced : ∀ a : Account, a.Keyed → a.Balanced e := by
    intro a keyed key
    have htotal : ∀ side : List Sign, (∀ s ∈ side, s.key? = some key) → e.total side = 0 := by
      intro side hside
      refine List.sum_eq_zero fun n hn => ?_
      obtain ⟨s, hs, rfl⟩ := List.mem_map.1 hn
      exact htally s key (hside s hs)
    rw [htotal _ fun s hs => keyed.outgoing hs, htotal _ fun s hs => keyed.incoming hs,
      Executor.owed, unused.runs]
    rfl
  refine ⟨⟨?_, ?_, ?_⟩, Executor.orderly_of_blank unused.runs unused.jobs, ?_,
    hbalanced _ Account.keyed_calls, fun _ => hbalanced _ Account.keyed_durations,
    fun _ key => htally _ key rfl, fun _ key => htally _ key rfl⟩
  · intro run hrun
    simp [unused.runs] at hrun
  · intro n t ht
    simp [unused.timers] at ht
  · simp [unused.jobs]
  · intro run hrun
    simp [unused.runs] at hrun

/-- The registry of a configuration has the chain that the configuration says. -/
theorem wrappers_of_configure
    {e₀ : Executor}
    {config : Config}
    {b : Builder}
    (configured : (Builder.new e₀).configure config = .ok b) :
    b.executor = (Builder.new e₀).executor ∧
      b.wrappers = config.wrappers b.signal b.tracker := by
  obtain ⟨chain, hchain, hrest⟩ := ok_of_bind configured
  obtain ⟨parser, -, hb⟩ := ok_of_bind hrest
  obtain ⟨-, -, hwrappers⟩ := ok_of_bind hchain
  cases hb
  cases hwrappers
  exact ⟨rfl, List.append_nil _⟩

end Registry

namespace Config

/-- The wrappers of a configuration, one by one. -/
theorem mem_wrappers_iff
    {config : Config}
    {signal : SignalId}
    {tracker : TrackerId}
    {w : Wrapper} :
    w ∈ config.wrappers signal tracker ↔
      config.recover = true ∧ w = .recover ∨ w = .track tracker ∨
        config.trace = true ∧ w = .trace .logging ∨ config.overlap = .skip ∧ w = .skip ∨
        config.overlap = .delay ∧ w = .delay ∨
        ∃ r, config.retry = some r ∧ w = .retry signal r.limit r.interval := by
  have hoverlap : w ∈ config.overlapWrappers ↔
      config.overlap = .skip ∧ w = .skip ∨ config.overlap = .delay ∧ w = .delay := by
    unfold overlapWrappers
    cases config.overlap <;> simp
  have hretry : w ∈ config.retryWrappers signal ↔
      ∃ r, config.retry = some r ∧ w = .retry signal r.limit r.interval := by
    unfold retryWrappers
    cases config.retry <;> simp
  have hswitch : ∀ (b : Bool) (v : Wrapper), w ∈ (if b then [v] else []) ↔ b = true ∧ w = v := by
    intro b v
    cases b <;> simp
  unfold wrappers
  rw [List.mem_append, List.mem_append, List.mem_append, List.mem_append, hswitch, hswitch,
    hoverlap, hretry, List.mem_singleton]
  simp only [or_assoc]

theorem barredOnce_wrappers
    {config : Config}
    (recover : config.recover = true)
    (signal : SignalId)
    (tracker : TrackerId) :
    Executor.BarredOnce (config.wrappers signal tracker) := by
  refine ⟨{ config with recover := false }.wrappers signal tracker, ?_, ?_⟩
  · unfold wrappers
    rw [recover]
    rfl
  · simp [mem_wrappers_iff]

theorem skip_not_mem_wrappers
    {config : Config}
    (overlap : config.overlap ≠ .skip)
    (signal : SignalId)
    (tracker : TrackerId) :
    .skip ∉ config.wrappers signal tracker := by
  simp [mem_wrappers_iff, overlap]

theorem retry_not_mem_wrappers
    {config : Config}
    (retry : config.retry = none)
    (signal : SignalId)
    (tracker : TrackerId)
    (own : SignalId)
    (limit : Int)
    (interval : Span) :
    .retry own limit interval ∉ config.wrappers signal tracker := by
  simp [mem_wrappers_iff, retry]

end Config

namespace Executor

/-- No run of a key is in progress. -/
def IdleKey
    (e : Executor)
    (key : String) :
    Prop :=
  ∀ run ∈ e.runs, e.jobKey run.job = key → run.isOver = true

theorem owed_of_idle
    {e : Executor}
    {key : String}
    {debt : Run → Nat}
    (idle : e.IdleKey key)
    (paid : ∀ run ∈ e.runs, run.isOver = true → debt run = 0) :
    e.owed debt key = 0 := by
  refine List.sum_eq_zero fun n hn => ?_
  obtain ⟨run, hrun, rfl⟩ := List.mem_map.1 hn
  split
  · rename_i hkey
    exact paid run hrun (idle run hrun hkey)
  · rfl

/-- A run that is over owes no call. -/
theorem callsOwed_of_isOver
    {run : Run}
    (ended : run.isOver = true) :
    run.callsOwed = 0 := by
  unfold Run.isOver at ended
  unfold Run.callsOwed
  split at ended <;> simp_all

/-- A run that is over has come out of its barrier. -/
theorem Booked.durationsOwed
    {c : Chain}
    {e : Executor}
    (booked : Booked c e)
    (barred : BarredOnce c)
    {run : Run}
    (hrun : run ∈ e.runs)
    (ended : run.isOver = true) :
    run.durationsOwed = 0 := by
  obtain ⟨inner, hchain, -⟩ := barred
  have hlt := booked.staffed.housed run hrun
  have hjob := List.getElem?_eq_getElem hlt
  have hbarred : Job.Barred e.jobs[run.job] := congrArg List.head?
    ((booked.staffed.chains _ (List.mem_of_getElem? hjob)).trans hchain)
  obtain ⟨o, ho⟩ := booked.barriers.returned booked.orderly hrun hjob hbarred ended
  have hstack := booked.orderly.ended run hrun ended
  simp [Run.durationsOwed, hstack, ho, Control.outcome?]

end Executor

namespace Registry

/-- **The figures of a key add up.**  A registry follows a configuration, and nobody but its
engine starts runs.  Whenever no run of a key is in progress, the task of the key has been called
once for each activation that was not skipped and once more for each repetition; nothing is
skipped unless the configuration says so, nor repeated; and with a fault barrier each activation
has left one duration. -/
theorem activations_conserved
    {e₀ : Executor}
    {config : Config}
    {b : Builder}
    {driven : Bool}
    {g : Registry}
    {key : String}
    (unused : Unused e₀)
    (configured : (Builder.new e₀).configure config = .ok b)
    (attended : (b.build driven).Attends g)
    (idle : g.executor.IdleKey key) :
    let figure := fun m => g.executor.journal.value m
    ((g.executor.calls.countP fun call => call.key == key : Nat) : Int) =
        figure (.activations key) - figure (.skips key) + figure (.retries key) ∧
      (config.overlap ≠ .skip → figure (.skips key) = 0) ∧
      (config.retry = none → figure (.retries key) = 0) ∧
      (config.recover = true → figure (.runDurations key) = figure (.activations key)) := by
  obtain ⟨hexecutor, hwrappers⟩ := wrappers_of_configure configured
  obtain ⟨-, hserves⟩ := attended.serves
  have hunused : Unused (b.build driven).executor := by
    show Unused b.executor
    rw [hexecutor]
    exact ⟨unused.jobs, unused.runs, unused.timers, unused.calls, unused.figures⟩
  have hbooked := (hunused.booked (b.build driven).chain).serves hserves
  have hchain : (b.build driven).chain = config.wrappers b.signal b.tracker := hwrappers
  rw [hchain] at hbooked
  dsimp only
  refine ⟨?_, ?_, ?_, ?_⟩
  · have hcalls := hbooked.calls key
    have howed : g.executor.owed Account.calls.debt key = 0 :=
      Executor.owed_of_idle idle fun run _ => Executor.callsOwed_of_isOver
    rw [howed] at hcalls
    simp only [Account.calls, Executor.total, Executor.tally, List.map_cons, List.map_nil,
      List.sum_cons, List.sum_nil] at hcalls
    omega
  · exact fun overlap => hbooked.skips (Config.skip_not_mem_wrappers overlap _ _) key
  · exact fun retry => hbooked.retries (Config.retry_not_mem_wrappers retry _ _) key
  · intro recover
    have hbarred := Config.barredOnce_wrappers recover b.signal b.tracker
    have hdurations := hbooked.durations hbarred key
    have howed : g.executor.owed Account.durations.debt key = 0 :=
      Executor.owed_of_idle idle fun run hrun => hbooked.durationsOwed hbarred hrun
    rw [howed] at hdurations
    simpa [Account.durations, Executor.total, Executor.tally] using hdurations

/-- A configuration with a fault barrier, traces and repetition that drops overlapping runs. -/
def thrifty : Config :=
  { Config.standard "info" with
    overlap := .skip
    retry := some ⟨2, shortestRetry⟩
    trace := true }

/-- The builder that follows it. -/
def thriftyBuilder : Builder :=
  let b := Builder.new (.atRest .epoch)
  { b with chain := some (thrifty.wrappers b.signal b.tracker), parser := .standard }

/-- A registry with a job whose first call lasts until after the second activation and fails. -/
def sweeping : Registry :=
  let calls : List Attempt := [{ sleep := some 2500, ending := .fail "late" }, {}]
  (Operation.add "sweep" .null (.ofList calls) everySecond).perform (thriftyBuilder.build true)

/-- The registry after it has been started and the job has been served for a while. -/
def swept : Registry :=
  (Operation.start.perform sweeping).onExecutor fun e => e.settle.passTo 3800

theorem activations_conserved_swept :
    let figure := fun m => swept.executor.journal.value m
    figure (.activations "sweep") = 2 ∧ figure (.skips "sweep") = 1 ∧
      figure (.retries "sweep") = 1 ∧ figure (.runDurations "sweep") = 2 ∧
      ((swept.executor.calls.countP fun call => call.key == "sweep" : Nat) : Int) = 2 - 1 + 1 := by
  have hunused : Unused (.atRest .epoch) := ⟨rfl, rfl, rfl, rfl, fun _ _ _ => rfl⟩
  have hconfigured : (Builder.new (.atRest .epoch)).configure thrifty = .ok thriftyBuilder := rfl
  have hattended : (thriftyBuilder.build true).Attends swept := by
    have hstarted : (thriftyBuilder.build true).Attends (Operation.start.perform sweeping) :=
      .tail (.single (.perform _)) (.perform .start)
    exact hstarted.trans (attends_of_serves _ (Executor.Ticks.serves
      ((Executor.ticks_settle _).trans (Executor.ticks_passUntil _ _ _))))
  have hidle : swept.executor.IdleKey "sweep" := by
    have hended : swept.executor.runs.all Run.isOver = true := by decide +kernel
    exact fun run hrun _ => List.all_eq_true.1 hended run hrun
  obtain ⟨hcalls, -, -, hdurations⟩ :=
    activations_conserved hunused hconfigured hattended hidle
  have hactivations : swept.executor.journal.value (.activations "sweep") = 2 := by decide +kernel
  have hskips : swept.executor.journal.value (.skips "sweep") = 1 := by decide +kernel
  have hretries : swept.executor.journal.value (.retries "sweep") = 1 := by decide +kernel
  dsimp only at hcalls hdurations ⊢
  rw [hactivations] at hcalls hdurations
  rw [hskips, hretries] at hcalls
  exact ⟨hactivations, hskips, hretries, hdurations rfl, hcalls⟩

end Registry

end Timetable
