import Timetable.Proofs.Executor.Waiters
import Timetable.Proofs.Registry.Ownership

/-!
# Graceful stops

A stop halts the registry and then waits, first for the tracker of all
activations and then for the tracker of the registry.  The halt takes the flag
away from under the timers; since a timer looks at the flag and counts an
activation in one move, whatever has been let through by then is counted when
the wait begins.  Others may run into the wait, and start the engine again; what
the stop has waited for has ended all the same.

Main results:

* the tracker of all activations counts those that have been let through and
  have not ended (inFlight_dispatched);
* a stop that returns has seen a moment at which every activation let through
  had ended, and after it one at which no run was inside the registry's tracker
  (stop_graceful).
-/

namespace Timetable

namespace Executor

/-- The runs of the engine that have not ended. -/
def runsInProgress (e : Executor) : List Run :=
  e.engineRuns.filter fun run => !run.isOver

/-- The wait of somebody is over. -/
def HasReturned (e : Executor) (n : Nat) : Prop :=
  ∃ w, e.waiters[n]? = some w ∧ w.Returned

/-- Every activation that has been let through has ended. -/
structure Drained (e : Executor) : Prop where
  counted : e.countedTimers = 0
  ended : ∀ run ∈ e.engineRuns, run.isOver = true

theorem load_of_apart
    {e : Executor}
    (h : e.Apart)
    {run : Run}
    (hmem : run ∈ e.runs) :
    run.load e.dispatched =
      if run.counted = some e.dispatched ∧ run.isOver = false then 1 else 0 := by
  rw [Run.load, List.count_eq_zero_of_not_mem (h.frames run hmem), Nat.zero_add]

/-- **The tracker of all activations counts those that have been let through and have not
ended.** -/
theorem inFlight_dispatched
    {e : Executor}
    (ledger : e.Ledger)
    (apart : e.Apart) :
    e.inFlight e.dispatched = e.runsInProgress.length + e.countedTimers := by
  rw [ledger.balance _ ledger.dispatched, if_pos rfl]
  congr 1
  have hloads : e.runs.map (fun run => run.load e.dispatched) =
      e.runs.map fun run =>
        if run.counted = some e.dispatched ∧ run.isOver = false then 1 else 0 :=
    List.map_congr_left fun run hmem => load_of_apart apart hmem
  rw [loads, hloads, runsInProgress, engineRuns, List.filter_filter]
  induction e.runs with
  | nil => rfl
  | cons run runs ih =>
      rw [List.map_cons, List.sum_cons, ih, List.filter_cons]
      by_cases hrun : run.counted = some e.dispatched ∧ run.isOver = false
      · rw [if_pos hrun, if_pos (by simp [hrun.1, hrun.2]), List.length_cons]
        omega
      · rw [if_neg hrun, if_neg]
        · omega
        · simp only [Bool.and_eq_true, Bool.not_eq_true', beq_iff_eq]
          intro hand
          exact hrun ⟨hand.2, hand.1⟩

theorem drained_of_inFlight
    {e : Executor}
    (ledger : e.Ledger)
    (apart : e.Apart)
    (h : e.inFlight e.dispatched = 0) :
    e.Drained := by
  rw [inFlight_dispatched ledger apart] at h
  refine ⟨by omega, ?_⟩
  intro run hmem
  by_contra hlasts
  have hempty : e.runsInProgress = [] := List.eq_nil_of_length_eq_zero (by omega)
  have hin : run ∈ e.runsInProgress := List.mem_filter.2 ⟨hmem, by simpa using hlasts⟩
  rw [hempty] at hin
  simp at hin

/-- What had been let through by a moment at which all had ended is over from then on. -/
theorem Drained.over
    {e d r : Executor}
    (hdrained : d.Drained)
    (he : e.Later d)
    (hd : d.Later r)
    {k : RunId}
    {run : Run}
    (hrun : e.runs[k]? = some run)
    (hcounted : run.counted = some e.dispatched) :
    ∃ run', r.runs[k]? = some run' ∧ run'.isOver = true := by
  obtain ⟨run', hrun', hkeeps⟩ := he.runs k run hrun
  have hover : run'.isOver = true := by
    refine hdrained.ended run' (List.mem_filter.2 ⟨List.mem_of_getElem? hrun', ?_⟩)
    rw [hkeeps.counted, hcounted, he.dispatched, beq_self_eq_true]
  obtain ⟨run'', hrun'', hkeeps'⟩ := hd.runs k run' hrun'
  exact ⟨run'', hrun'', hkeeps'.ended hover⟩

/-- A tracker that counts nothing has no run inside. -/
theorem not_inside_of_inFlight
    {e : Executor}
    (ledger : e.Ledger)
    {t : TrackerId}
    (ht : t < e.trackers.length)
    (h : e.inFlight t = 0)
    {run : Run}
    (hmem : run ∈ e.runs) :
    Frame.track t ∉ run.stack := by
  intro hframe
  have hbalance := ledger.balance t ht
  obtain ⟨r, hr⟩ := List.mem_iff_getElem?.1 hmem
  have hload := load_le_loads hr t
  have hcount := (List.count_pos_iff.2 hframe).trans_le (run.count_le_load t)
  omega

end Executor

namespace Registry

/-- A registry at its beginning, whose engine drives timers and is its own. -/
structure Fresh (g : Registry) : Prop where
  jobs : g.executor.jobs = []
  runs : g.executor.runs = []
  timers : g.executor.timers = []
  idle : ∀ t, g.executor.inFlight t = 0
  dispatched : g.executor.dispatched < g.executor.trackers.length
  tracker : g.tracker < g.executor.trackers.length
  driven : g.driven = true
  apart : Wrapper.track g.executor.dispatched ∉ g.chain

/-- A running registry is halted, and the engine drifts between the flag and the signal. -/
def Halts (g h : Registry) : Prop :=
  g.running = true ∧ ∃ e, g.executor.stopEngine.Drifts e ∧
    h = { g.within (e.trigger g.signal) with running := false }

/-- The registry after somebody has begun to wait for the end of what is in progress. -/
def awaiting (g : Registry) : Registry :=
  g.within { g.executor with
    waiters := g.executor.waiters ++ [⟨g.stopTrackers, some stopFarewell, g.executor.now, none⟩] }

/-- A registry reaches another one in steps, and the engine stands still all the way. -/
abbrev ReachesHalted : Registry → Registry → Prop :=
  Relation.ReflTransGen fun g g' => g.Step g' ∧ g'.executor.running = false

theorem Fresh.ledger
    {g : Registry}
    (h : g.Fresh) :
    g.executor.Ledger := by
  refine ⟨h.dispatched, ?_⟩
  intro t _
  simp [h.idle t, Executor.loads, h.runs, Executor.countedTimers, h.timers]

theorem Fresh.executor_apart
    {g : Registry}
    (h : g.Fresh) :
    g.executor.Apart := by
  refine ⟨?_, by simp [h.runs]⟩
  rintro ⟨job, hmem, -⟩
  simp [h.jobs] at hmem

/-- The books balance and the tracker of all activations stays apart in every run. -/
theorem Fresh.reaches
    {g₀ g : Registry}
    (fresh : g₀.Fresh)
    (h : g₀.Reaches g) :
    g.executor.Ledger ∧ g.executor.Apart ∧ Wrapper.track g.executor.dispatched ∉ g.chain ∧
      g.tracker < g.executor.trackers.length ∧ g.driven = true := by
  have hlater := h.acts.later
  obtain ⟨hchain, htracker, hdriven⟩ := h.chain_eq
  refine ⟨fresh.ledger.acts h.acts, fresh.executor_apart.acts fresh.apart h.acts, ?_, ?_, ?_⟩
  · rw [hlater.dispatched, hchain]
    exact fresh.apart
  · rw [htracker, hlater.trackers]
    exact fresh.tracker
  · rw [hdriven]
    exact fresh.driven

/-- A step with the engine standing still before and after it lets nothing through. -/
theorem Step.activations
    {g g' : Registry}
    (h : g.Step g')
    (stopped : g.executor.running = false)
    (stopped' : g'.executor.running = false) :
    g'.executor.activations = g.executor.activations := by
  rcases h.changes with h | ⟨e, -, hstart⟩
  · exact (Executor.activations_of_changes h stopped).1
  · rw [hstart] at stopped'
    simp [Executor.startEngine] at stopped'

/-- A halt stops the engine and lets nothing through. -/
theorem Halts.activations
    {g h : Registry}
    (halts : g.Halts h) :
    h.executor.activations = g.executor.activations ∧ h.executor.running = false := by
  obtain ⟨-, e, hdrifts, rfl⟩ := halts
  have hchanges : Executor.Changes g.chain g.executor.stopEngine (e.trigger g.signal) :=
    hdrifts.changes.tail (.trigger g.signal)
  obtain ⟨hsame, hstays⟩ := Executor.activations_of_changes hchanges rfl
  exact ⟨hsame, hstays⟩

theorem Halts.step
    {g h : Registry}
    (halts : g.Halts h) :
    g.Step h := by
  obtain ⟨hrunning, e, hdrifts, rfl⟩ := halts
  exact .halt hrunning hdrifts

theorem ReachesHalted.activations
    {g g' : Registry}
    (h : g.ReachesHalted g')
    (stopped : g.executor.running = false) :
    g'.executor.activations = g.executor.activations ∧ g'.executor.running = false := by
  induction h with
  | refl => exact ⟨rfl, stopped⟩
  | tail _ hstep ih =>
      exact ⟨(hstep.1.activations ih.2 hstep.2).trans ih.1, hstep.2⟩

/-- Whoever has begun to wait and returns has seen a moment at which all activations had
ended, and after it one at which no run was inside the registry's tracker. -/
theorem moments_of_returned
    {a r : Registry}
    (ledger : a.executor.Ledger)
    (apart : a.executor.Apart)
    (chain : Wrapper.track a.executor.dispatched ∉ a.chain)
    (tracker : a.tracker < a.executor.trackers.length)
    (driven : a.driven = true)
    (reaches : a.awaiting.Reaches r)
    (returned : r.executor.HasReturned a.executor.waiters.length) :
    ∃ d m : Executor,
      Executor.Acts a.chain a.executor d ∧ d.Drained ∧
      Executor.Acts a.chain d m ∧ (∀ run ∈ m.runs, Frame.track a.tracker ∉ run.stack) ∧
      Executor.Acts a.chain m r.executor := by
  let n := a.executor.waiters.length
  have hacts : Executor.Acts a.chain a.awaiting.executor r.executor := reaches.acts
  have hbegin : Executor.Acts a.chain a.executor a.awaiting.executor :=
    .single (.change (.drift (.wait _ _)))
  have htrackers : a.stopTrackers = [a.executor.dispatched, a.tracker] := by
    simp [stopTrackers, driven]
  have hw : a.awaiting.executor.waiters[n]? =
      some ⟨a.stopTrackers, some stopFarewell, a.executor.now, none⟩ :=
    List.getElem?_concat_length
  obtain ⟨v, hv, hreturned⟩ := returned
  have hlength : v.trackers.length = 0 := by rw [hreturned.1, List.length_nil]
  obtain ⟨d, d', w', had, hidle, hstep, hdr, hw', htail⟩ :=
    Executor.exists_idle_of_passed hacts hw htrackers hv (by omega)
  obtain ⟨m, m', -, hdm, hidle', hstep', hmr, -⟩ :=
    Executor.exists_idle_of_passed hdr hw' htail hv (by omega)
  have hd : Executor.Acts a.chain a.executor d := hbegin.trans had
  have hm : Executor.Acts a.chain a.executor m := hd.trans (.head hstep hdm)
  refine ⟨d, m, hd, ?_, .head hstep hdm, ?_, .head hstep' hmr⟩
  · refine Executor.drained_of_inFlight (ledger.acts hd) (apart.acts chain hd) ?_
    rw [hd.later.dispatched]
    exact hidle
  · intro run hmem
    refine Executor.not_inside_of_inFlight (ledger.acts hm) ?_ hidle' hmem
    rw [hm.later.trackers]
    exact tracker

/-- The stop of a running registry is a halt and a wait; if it does not give up, the wait is
over when it answers. -/
theorem stop_returns
    (g : Registry)
    (running : g.running = true)
    (limit : Nat)
    (answer : (g.stop limit).2.1 = true) :
    ∃ h a : Registry,
      g.Halts h ∧ h.Reaches a ∧ a.awaiting.Reaches (g.stop limit).1 ∧
      (g.stop limit).1.executor.HasReturned a.executor.waiters.length := by
  obtain ⟨a, hreaches, hstop⟩ := g.stop_eq running limit
  rw [hstop] at answer ⊢
  rcases a.executor.drifts_waitFor a.stopTrackers (some stopFarewell) limit with
    ⟨-, hwaited, hdrifts⟩ | ⟨hgaveUp, -⟩
  · have hwait : a.awaiting.executor.Drifts
        (a.executor.waitFor a.stopTrackers (some stopFarewell) limit).1 :=
      (Executor.drifts_turn _ _).trans hdrifts
    have hw : a.awaiting.executor.waiters[a.executor.waiters.length]? =
        some ⟨a.stopTrackers, some stopFarewell, a.executor.now, none⟩ :=
      List.getElem?_concat_length
    obtain ⟨w, hw', honest⟩ := Executor.honest_of_drifts hwait hw (by simp [Waiter.Honest])
    refine ⟨g.halt, a, ⟨running, _, .refl, rfl⟩, hreaches,
      reaches_of_drifts a.awaiting hwait, w, hw', ?_⟩
    have hfinished : w.finished.isSome = true := by
      simpa [Executor.hasWaited, hw'] using hwaited
    exact ⟨honest hfinished, hfinished⟩
  · rw [hgaveUp] at answer
    simp at answer

/-- **A graceful stop.**  At every moment the tracker of all activations counts those that
have been let through and have not ended; from a halt to the next start nothing is let
through; and when a stop that has halted the registry returns, whatever ran in between,
there has been a moment at which every activation let through had ended, and after it one
at which no run was inside the registry's tracker. -/
theorem stop_graceful
    {g₀ g : Registry}
    (fresh : g₀.Fresh)
    (reaches : g₀.Reaches g) :
    (∀ e, Executor.Acts g₀.chain g₀.executor e →
      e.inFlight e.dispatched = e.runsInProgress.length + e.countedTimers ∧
        ∀ run ∈ e.runsInProgress, 0 < e.inFlight e.dispatched) ∧
      (∀ h g', g.Halts h → h.ReachesHalted g' →
        g'.executor.activations = g.executor.activations) ∧
      (∀ h a r, g.Halts h → h.Reaches a → a.awaiting.Reaches r →
        r.executor.HasReturned a.executor.waiters.length →
        (∀ (k : RunId) (run : Run), h.executor.runs[k]? = some run →
          run.counted = some h.executor.dispatched →
          ∃ run', r.executor.runs[k]? = some run' ∧ run'.isOver = true) ∧
        ∃ d m : Executor,
          Executor.Acts g₀.chain h.executor d ∧ d.Drained ∧
          Executor.Acts g₀.chain d m ∧
          (∀ (k : RunId) (run : Run), h.executor.runs[k]? = some run →
            ∃ run', m.runs[k]? = some run' ∧ Frame.track g.tracker ∉ run'.stack) ∧
          Executor.Acts g₀.chain m r.executor) ∧
      (g.running = true → ∀ limit, (g.stop limit).2.1 = true →
        ∃ h a, g.Halts h ∧ h.Reaches a ∧ a.awaiting.Reaches (g.stop limit).1 ∧
          (g.stop limit).1.executor.HasReturned a.executor.waiters.length) := by
  refine ⟨?_, ?_, ?_, g.stop_returns⟩
  · intro e hacts
    have hledger := fresh.ledger.acts hacts
    have happart := fresh.executor_apart.acts fresh.apart hacts
    have hcount := Executor.inFlight_dispatched hledger happart
    refine ⟨hcount, ?_⟩
    intro run hmem
    have hpos := List.length_pos_of_mem hmem
    omega
  · intro h g' halts hhalted
    obtain ⟨hsame, hstopped⟩ := halts.activations
    exact (hhalted.activations hstopped).1.trans hsame
  · intro h a r halts hreaches hawaiting hreturned
    have hhalt : g₀.Reaches h := reaches.tail halts.step
    obtain ⟨hledger, happart, happart', htracker, hdriven⟩ := fresh.reaches (hhalt.trans hreaches)
    have hchain : a.chain = g₀.chain := (Reaches.chain_eq (hhalt.trans hreaches)).1
    have hsame : a.tracker = g.tracker := by
      rw [(Reaches.chain_eq hreaches).2.1, (halts.step.chain_eq).2.1]
    obtain ⟨d, m, had, hdrained, hdm, hinside, hmr⟩ :=
      moments_of_returned hledger happart happart' htracker hdriven hawaiting hreturned
    rw [hchain] at had hdm hmr
    rw [hsame] at hinside
    have hha : Executor.Acts g₀.chain h.executor a.executor := by
      have := Reaches.acts hreaches
      rwa [(Reaches.chain_eq hhalt).1] at this
    have hhd : Executor.Acts g₀.chain h.executor d := hha.trans had
    have hdr : Executor.Acts g₀.chain d r.executor := hdm.trans hmr
    have hhm : Executor.Acts g₀.chain h.executor m := hhd.trans hdm
    refine ⟨?_, d, m, hhd, hdrained, hdm, ?_, hmr⟩
    · intro k run hrun hcounted
      exact hdrained.over hhd.later hdr.later hrun hcounted
    · intro k run hrun
      obtain ⟨run', hrun', -⟩ := hhm.later.runs k run hrun
      exact ⟨run', hrun', hinside run' (List.mem_of_getElem? hrun')⟩

/-- A registry that comes from a builder is fresh, if no wrapper names the engine's tracker. -/
theorem fresh_build
    (wall : Instant)
    (b : Builder)
    (executor : b.executor = (Builder.new (.atRest wall)).executor)
    (tracker : b.tracker = (Builder.new (.atRest wall)).tracker)
    (wrappers : Wrapper.track 0 ∉ b.wrappers) :
    (b.build true).Fresh := by
  have hexecutor : (b.build true).executor = (Builder.new (.atRest wall)).executor := executor
  refine ⟨by rw [hexecutor]; rfl, by rw [hexecutor]; rfl, by rw [hexecutor]; rfl, ?_,
    by rw [hexecutor]; exact Nat.two_pos, ?_, rfl, by rw [hexecutor]; exact wrappers⟩
  · intro t
    rw [hexecutor]
    match t with
    | 0 => rfl
    | 1 => rfl
    | t + 2 => rfl
  · show b.tracker < _
    rw [hexecutor, tracker]
    exact Nat.one_lt_two

/-- The registry half a second after the first run of its job, which takes five seconds, has
begun. -/
def sleeping : Registry :=
  let added := (Operation.add "sleep" .null (Script.ofList [{ sleep := some 5000 }])
    everySecond).perform untouched
  (Operation.start.perform added).onExecutor fun e => e.settle.passTo 1500

theorem reaches_sleeping : untouched.Reaches sleeping := by
  have hadded := untouched.reaches_perform
    (.add "sleep" .null (Script.ofList [{ sleep := some 5000 }]) everySecond)
  have hstarted := hadded.trans (reaches_perform _ .start)
  exact hstarted.trans (reaches_of_drifts _
    ((Executor.drifts_settle _).trans (Executor.drifts_passUntil _ _ _)))

/-- The run in progress is over when the stop returns. -/
theorem stop_graceful_sleeping :
    untouched.Fresh ∧
      untouched.Reaches sleeping ∧
      (∃ run, sleeping.executor.runs[0]? = some run ∧ run.isOver = false) ∧
      ∃ run, sleeping.stop.1.executor.runs[0]? = some run ∧ run.isOver = true := by
  have hfresh : untouched.Fresh := fresh_build .epoch _ rfl rfl (by decide)
  have hrun : (sleeping.executor.runs[0]?).any
      (fun run => run.counted == some 0 && !run.isOver) = true := by
    decide +kernel
  obtain ⟨run, hrun, hstate⟩ := (Option.any_eq_true ..).1 hrun
  rw [Bool.and_eq_true, beq_iff_eq, Bool.not_eq_true'] at hstate
  obtain ⟨-, -, hwaits, hreturns⟩ := stop_graceful hfresh reaches_sleeping
  obtain ⟨h, a, halts, hreaches, hawaiting, hreturned⟩ :=
    hreturns (by decide +kernel) Executor.longestWait (by decide +kernel)
  refine ⟨hfresh, reaches_sleeping, ⟨run, hrun, hstate.2⟩, ?_⟩
  have hlater : sleeping.executor.Later h.executor := (halts.step.acts).later
  obtain ⟨run', hrun', hkeeps⟩ := hlater.runs 0 run hrun
  refine (hwaits h a _ halts hreaches hawaiting hreturned).1 0 run' hrun' ?_
  have hdispatched : sleeping.executor.dispatched = 0 := reaches_sleeping.acts.later.dispatched
  rw [hkeeps.counted, hstate.1, hlater.dispatched, hdispatched]

end Registry
end Timetable
