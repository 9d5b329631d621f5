import Timetable.Proofs.Executor.Readings
import Timetable.Proofs.Registry.Halting

/-!
# Running periods and their shutdown tokens

A start gives the shutdown signal a fresh token if the old one is cancelled, and a halt
cancels the token that the signal has.  Nothing else that happens to a registry touches
it: timers have tokens of their own.  So every running period has a token for itself.
It is handed out to whoever asks, and repeating runs read it; it is live as long as the
period lasts, and no later start brings it back.

Main results:

* a step that is neither a start nor a halt leaves the token of the registry alone
  (Step.turn);
* while a registry runs its token stays the same, and it is cancelled after the halt
  that ends the period (token_of_reachesRunning, Halts.cancelled);
* whatever has been handed out and is live is the current token (live_token_eq);
* all this together, with what it means for repeating runs (periods_of_reaches).
-/

namespace Timetable
namespace Registry

variable {g g' h : Registry}

/-- The shutdown token that is handed out. -/
def shutdownToken (g : Registry) : TokenId :=
  g.executor.signalToken g.signal

/-- A token is cancelled. -/
def IsCancelled
    (g : Registry)
    (s : TokenId) :
    Prop :=
  g.executor.isCancelled s = true

/-- A registry reaches another one in steps, and runs all the way. -/
abbrev ReachesRunning : Registry → Registry → Prop :=
  Relation.ReflTransGen fun g g' => g.Step g' ∧ g'.running = true

/-- A registry that has never been started, without timers, jobs and runs.  No timer reaches
the token of its signal, and no token above it is still to be made. -/
structure Unstarted (g : Registry) : Prop where
  stopped : g.running = false
  engine : g.executor.running = false
  timers : g.executor.timers = []
  jobs : g.executor.jobs = []
  runs : g.executor.runs = []
  signal : g.signal < g.executor.signals.length
  token : g.executor.Steady g.shutdownToken

/-- What is always true of a registry: the engine runs with it, its token is out of the reach
of timers, and live while it runs; and the runs heed the signal. -/
structure Regular (g : Registry) : Prop where
  flags : g.executor.running = g.running
  signal : g.signal < g.executor.signals.length
  known : g.executor.Known
  steady : g.executor.Steady g.shutdownToken
  live : g.running = true → ¬ g.IsCancelled g.shutdownToken
  attentive : Executor.Attentive g.chain g.signal g.executor

theorem Unstarted.regular (unstarted : g.Unstarted) : g.Regular where
  flags := unstarted.engine.trans unstarted.stopped.symm
  signal := unstarted.signal
  known := by simp [Executor.Known, unstarted.timers]
  steady := unstarted.token
  live := by simp [unstarted.stopped]
  attentive := Executor.attentive_of_blank unstarted.runs unstarted.jobs

section Steps

/-- A registry keeps its signal. -/
theorem Step.signal_eq (h : g.Step g') : g'.signal = g.signal := by
  cases h with
  | drift | giveUp | start | halt | forget => rfl
  | register key =>
      show (g.replace key).signal = g.signal
      unfold replace
      split <;> rfl
  | remove key =>
      unfold Registry.remove
      split <;> rfl
  | contains key =>
      unfold Registry.contains
      split
      · rfl
      · split <;> rfl

theorem Reaches.signal_eq (h : g.Reaches g') : g'.signal = g.signal := by
  induction h with
  | refl => rfl
  | tail _ hstep ih => exact hstep.signal_eq.trans ih

/-- What is cancelled stays so. -/
theorem Reaches.cancelled
    (h : g.Reaches g')
    {s : TokenId}
    (cancelled : g.IsCancelled s) :
    g'.IsCancelled s :=
  h.acts.isCancelled cancelled

/-- **Whatever has been handed out and is live is the current token.** -/
theorem live_token_eq
    (h : g.Reaches g')
    (live : ¬ g'.IsCancelled g.shutdownToken) :
    g'.shutdownToken = g.shutdownToken := by
  unfold shutdownToken at live ⊢
  rw [h.signal_eq]
  exact (h.acts.signalToken g.signal).resolve_right live

/-- What a step is to the periods of a registry: it lets the registry and its token be, or it
is a start or a halt. -/
inductive Turn (g : Registry) : Registry → Prop
  | keep
      {g' : Registry}
      (running : g'.running = g.running)
      (spares : Executor.Spares g.shutdownToken g.executor g'.executor) :
      Turn g g'
  | start
      {e : Executor}
      (stopped : g.running = false)
      (drifts : (g.executor.rearm g.signal).Drifts e) :
      Turn g { g.within e.startEngine with running := true }
  | halt
      {h : Registry}
      (halts : g.Halts h) :
      Turn g h

/-- Closing a timer that is replaced leaves a token alone that is out of reach. -/
theorem spares_replace
    {s : TokenId}
    (steady : g.executor.Steady s)
    (key : String) :
    (g.replace key).running = g.running ∧
      Executor.Spares s g.executor (g.replace key).executor := by
  unfold replace
  split
  · exact ⟨rfl, .refl s _⟩
  · rename_i n _
    obtain ⟨hsignals, hrunning, htoken⟩ := Executor.spares_close steady n
    exact ⟨rfl, hsignals, hrunning, htoken⟩

/-- **A step that is neither a start nor a halt leaves the token of the registry alone.** -/
theorem Step.turn
    (h : g.Step g')
    (steady : g.executor.Steady g.shutdownToken) :
    g.Turn g' := by
  cases h with
  | drift h => exact .keep rfl (Executor.spares_drift _ h)
  | giveUp n => exact .keep rfl ⟨rfl, rfl, rfl⟩
  | start stopped h => exact .start stopped h
  | halt running h => exact .halt ⟨running, _, h, rfl⟩
  | @register key value script schedule e h =>
      obtain ⟨hrunning, hreplace⟩ := spares_replace steady key
      have hbefore := hreplace.trans (Executor.spares_drifts _ h)
      have hknown : g.shutdownToken < e.tokens.table.length := by
        obtain ⟨state, entry, -⟩ := steady
        exact (List.getElem?_eq_some_iff.1 (hbefore.token.trans entry)).1
      have hadded := Executor.spares_addJob hknown (g.replace key).chain key value script
      have hknown' : g.shutdownToken <
          (e.addJob (g.replace key).chain key value script).1.tokens.table.length :=
        Nat.lt_of_lt_of_le hknown (Tokens.later_fresh _).length
      exact .keep hrunning ((hbefore.trans hadded).trans
        (Executor.spares_arm hknown' schedule _ (g.replace key).driven))
  | remove key =>
      unfold Registry.remove
      split
      · exact .keep rfl (.refl _ _)
      · rename_i n _
        obtain ⟨hsignals, hrunning, htoken⟩ := Executor.spares_close steady n
        exact .keep rfl ⟨hsignals, hrunning, htoken⟩
  | contains key =>
      unfold Registry.contains
      split
      · exact .keep rfl (.refl _ _)
      · split <;> exact .keep rfl (.refl _ _)
  | forget => exact .keep rfl (.refl _ _)

/-- The halt cancels the token of the period. -/
theorem Halts.cancelled
    (halts : g.Halts h)
    (steady : g.executor.Steady g.shutdownToken) :
    h.running = false ∧ h.executor.running = false ∧ h.shutdownToken = g.shutdownToken ∧
      h.IsCancelled g.shutdownToken := by
  obtain ⟨-, e, hdrifts, rfl⟩ := halts
  obtain ⟨hsignals, hrunning, htoken⟩ := Executor.spares_drifts g.shutdownToken hdrifts
  have hcurrent : e.signalToken g.signal = g.shutdownToken := by
    rw [Executor.signalToken, hsignals]
    rfl
  have hknown : g.shutdownToken < e.tokens.table.length := by
    obtain ⟨state, entry, -⟩ := steady
    exact (List.getElem?_eq_some_iff.1 (htoken.trans entry)).1
  refine ⟨rfl, hrunning, hcurrent, ?_⟩
  show (e.tokens.cancel (e.signalToken g.signal)).isCancelled g.shutdownToken = true
  rw [hcurrent]
  exact Tokens.isCancelled_cancel_self hknown

/-- The start of a registry gives it a live token, which no timer reaches. -/
theorem Regular.start
    (regular : g.Regular)
    {e : Executor}
    (drifts : (g.executor.rearm g.signal).Drifts e) :
    e.Steady (e.signalToken g.signal) ∧ e.isCancelled (e.signalToken g.signal) = false := by
  obtain ⟨hsteady, hlive⟩ := Executor.steady_rearm regular.known regular.signal regular.steady
  have hspares := Executor.spares_drifts ((g.executor.rearm g.signal).signalToken g.signal) drifts
  rw [hspares.signalToken, hspares.isCancelled]
  exact ⟨hsteady.acts (c := []) drifts.changes.acts hspares, hlive⟩

theorem Regular.step
    (regular : g.Regular)
    (hstep : g.Step g') :
    g'.Regular := by
  have hsignal := hstep.signal_eq
  have hacts := hstep.acts
  have hthere : g'.signal < g'.executor.signals.length := by
    rw [hsignal, hacts.length_signals]
    exact regular.signal
  have hknown := regular.known.acts hacts
  have hattentive : Executor.Attentive g'.chain g'.signal g'.executor := by
    rw [hstep.chain_eq.1, hsignal]
    exact regular.attentive.acts hacts
  cases hstep.turn regular.steady with
  | keep running spares =>
      have htoken : g'.shutdownToken = g.shutdownToken := by
        rw [shutdownToken, hsignal]
        exact spares.signalToken g.signal
      refine ⟨?_, hthere, hknown, ?_, ?_, hattentive⟩
      · rw [spares.running, running]
        exact regular.flags
      · rw [htoken]
        exact regular.steady.acts hacts spares
      · intro hrunning
        rw [htoken, IsCancelled, spares.isCancelled]
        exact regular.live (running ▸ hrunning)
  | start stopped drifts =>
      obtain ⟨hsteady, hlive⟩ := regular.start drifts
      exact ⟨rfl, hthere, hknown, hsteady, fun _ => Bool.eq_false_iff.1 hlive, hattentive⟩
  | halt halts =>
      obtain ⟨hstopped, hengine, htoken, hcancelled⟩ := halts.cancelled regular.steady
      refine ⟨hengine.trans hstopped.symm, hthere, hknown, ?_, ?_, hattentive⟩
      · rw [htoken]
        exact Executor.steady_of_isCancelled hcancelled
      · intro hrunning
        rw [hstopped] at hrunning
        cases hrunning

theorem Regular.reaches
    (regular : g.Regular)
    (h : g.Reaches g') :
    g'.Regular := by
  induction h with
  | refl => exact regular
  | tail _ hstep ih => exact ih.step hstep

end Steps

section Spans

theorem ReachesRunning.reaches (h : g.ReachesRunning g') : g.Reaches g' :=
  Relation.ReflTransGen.mono (fun _ _ hstep => hstep.1) _ _ h

/-- **While a registry runs its token stays the same.** -/
theorem token_of_reachesRunning
    (regular : g.Regular)
    (running : g.running = true)
    (h : g.ReachesRunning g') :
    g'.running = true ∧ g'.shutdownToken = g.shutdownToken := by
  induction h with
  | refl => exact ⟨running, rfl⟩
  | @tail a b hreaches hstep ih =>
      obtain ⟨hrunning, htoken⟩ := ih
      refine ⟨hstep.2, ?_⟩
      cases hstep.1.turn (regular.reaches (ReachesRunning.reaches hreaches)).steady with
      | keep _ spares =>
          rw [← htoken, shutdownToken, hstep.1.signal_eq]
          exact spares.signalToken a.signal
      | start stopped =>
          rw [hrunning] at stopped
          cases stopped
      | halt halts =>
          obtain ⟨-, e, -, rfl⟩ := halts
          cases hstep.2

/-- What a running registry reaches belongs to the period, or comes after the halt that ends
it. -/
theorem ends_of_reaches
    (regular : g.Regular)
    (running : g.running = true)
    (h : g.Reaches g') :
    g.ReachesRunning g' ∨
      ∃ m h, g.ReachesRunning m ∧ m.Halts h ∧ h.Reaches g' := by
  induction h with
  | refl => exact Or.inl .refl
  | @tail a b hreaches hstep ih =>
      rcases ih with hperiod | ⟨m, h, hperiod, halts, hafter⟩
      · have hrunning := (token_of_reachesRunning regular running hperiod).1
        cases hstep.turn (regular.reaches hreaches).steady with
        | keep same => exact Or.inl (hperiod.tail ⟨hstep, same.trans hrunning⟩)
        | start stopped =>
            rw [hrunning] at stopped
            cases stopped
        | halt halts => exact Or.inr ⟨a, b, hperiod, halts, .refl⟩
      · exact Or.inr ⟨m, h, hperiod, halts, hafter.tail hstep⟩

/-- From a halt to the next start the token of a registry is cancelled. -/
theorem cancelled_of_reachesHalted
    (regular : g.Regular)
    (stopped : g.running = false)
    (cancelled : g.IsCancelled g.shutdownToken)
    (h : g.ReachesHalted g') :
    g'.running = false ∧ g'.Regular ∧ g'.IsCancelled g'.shutdownToken := by
  induction h with
  | refl => exact ⟨stopped, regular, cancelled⟩
  | @tail a b _ hstep ih =>
      obtain ⟨hstopped, hregular, hcancelled⟩ := ih
      refine ⟨(hregular.step hstep.1).flags.symm.trans hstep.2, hregular.step hstep.1, ?_⟩
      cases hstep.1.turn hregular.steady with
      | keep _ spares =>
          have htoken : b.shutdownToken = a.shutdownToken := by
            rw [shutdownToken, hstep.1.signal_eq]
            exact spares.signalToken a.signal
          rw [htoken, IsCancelled, spares.isCancelled]
          exact hcancelled
      | start => cases hstep.2
      | halt halts =>
          rw [halts.1] at hstopped
          cases hstopped

/-- While the current token is cancelled, whatever runs follow is. -/
theorem Regular.cancelled_of_follows
    (regular : g.Regular)
    (cancelled : g.IsCancelled g.shutdownToken)
    {run : Run}
    (hrun : run ∈ g.executor.runs)
    {d : Nat}
    {s : TokenId}
    (repeats : g.chain.Repeats d g.signal)
    (follows : run.shutdown? d = some s) :
    g.IsCancelled s := by
  rcases regular.attentive.reads run hrun d s repeats follows with hcancelled | rfl
  · exact hcancelled
  · exact cancelled

/-- A run follows a cancelled token until it leaves the layer, and it can stop whenever it
pauses there. -/
theorem Regular.stays_cancelled
    (regular : g.Regular)
    (reaches : g.Reaches g')
    {r : RunId}
    {run : Run}
    (entry : g.executor.runs[r]? = some run)
    {d : Nat}
    {s : TokenId}
    (follows : run.shutdown? d = some s)
    (cancelled : g.IsCancelled s) :
    (∃ m left, Executor.Acts g.chain g.executor m ∧ Executor.Acts g.chain m g'.executor ∧
        m.runs[r]? = some left ∧ left.shutdown? d = none) ∨
      ∃ run', g'.executor.runs[r]? = some run' ∧ run'.shutdown? d = some s ∧
        g'.IsCancelled s ∧
        ∀ f, run'.control = .pausing f → run'.stack.length = d + 1 → ∃ frames repeated,
          g'.executor.stopRepeating r run' frames repeated f "shutdown" ∈
            g'.executor.moves (.run r) := by
  have hregular := regular.reaches reaches
  have hcancelled := reaches.cancelled cancelled
  rcases reaches.acts.shutdown regular.attentive.orderly entry follows with
    ⟨run', entry', hfollows⟩ | hleft
  · exact Or.inr ⟨run', entry', hfollows, hcancelled, fun f hpausing hinnermost =>
      Executor.stopRepeating_mem_moves hregular.attentive.poised entry' hpausing hinnermost
        hfollows hcancelled⟩
  · exact Or.inl hleft

/-- The running periods of a registry, as they look from one of its states. -/
structure Periods (g : Registry) : Prop where
  /-- The engine runs exactly while the registry does. -/
  flags : g.executor.running = g.running
  /-- The token is live while the registry runs. -/
  live : g.running = true → ¬ g.IsCancelled g.shutdownToken
  /-- A token of a running period is the current one, and live, as long as the period lasts. -/
  during : g.running = true → ∀ g', g.ReachesRunning g' →
    g'.shutdownToken = g.shutdownToken ∧ ¬ g'.IsCancelled g.shutdownToken
  /-- A running period lasts until a halt. -/
  ends : g.running = true → ∀ g', g.Reaches g' →
    g.ReachesRunning g' ∨ ∃ m h, g.ReachesRunning m ∧ m.Halts h ∧ h.Reaches g'
  /-- From that halt on the token is cancelled, whatever comes. -/
  after : g.running = true → ∀ m h g', g.ReachesRunning m → m.Halts h → h.Reaches g' →
    g'.IsCancelled g.shutdownToken
  /-- From the halt to the next start the current token is cancelled. -/
  between : ∀ h g', g.Halts h → h.ReachesHalted g' → g'.IsCancelled g'.shutdownToken
  /-- Whatever is handed out now and is live later is the current token then. -/
  current : ∀ g', g.Reaches g' → ¬ g'.IsCancelled g.shutdownToken →
    g'.shutdownToken = g.shutdownToken
  /-- The next halt reaches whatever is handed out now, whenever it comes. -/
  next : ∀ g' h, g.Reaches g' → g'.Halts h → h.IsCancelled g.shutdownToken
  /-- A stop and a forced stop of a running registry begin with a halt. -/
  stops : g.running = true →
    g.Halts g.halt ∧ (∀ limit, g.halt.Reaches (g.stop limit).1) ∧ g.halt.Reaches g.forceStop
  /-- What a run follows in a layer of the signal is the current token or cancelled. -/
  reads : ∀ run ∈ g.executor.runs, ∀ d s, g.chain.Repeats d g.signal →
    run.shutdown? d = some s → g.IsCancelled s ∨ s = g.shutdownToken
  /-- From a halt on a run follows the token that it has read, cancelled, until it leaves the
  layer, and it can stop whenever it pauses there. -/
  retries : ∀ h g', g.Halts h → h.Reaches g' →
    ∀ r run d s, h.executor.runs[r]? = some run → h.chain.Repeats d h.signal →
      run.shutdown? d = some s →
      (∃ m left, Executor.Acts h.chain h.executor m ∧ Executor.Acts h.chain m g'.executor ∧
        m.runs[r]? = some left ∧ left.shutdown? d = none) ∨
      ∃ run', g'.executor.runs[r]? = some run' ∧ run'.shutdown? d = some s ∧
        g'.IsCancelled s ∧
        ∀ f, run'.control = .pausing f → run'.stack.length = d + 1 → ∃ frames repeated,
          g'.executor.stopRepeating r run' frames repeated f "shutdown" ∈
            g'.executor.moves (.run r)

/-- **Each running period has its own shutdown token.**  The engine runs exactly while the
registry does; a token that is handed out in a period is live until the halt that ends it and
cancelled ever after, whatever later starts do; the current token is live while the registry
runs and cancelled between a halt and the next start; every token ever handed out that is live
is the current one, so that the next halt reaches it; and a run that has read its token in a
period finds it cancelled after the halt, also if the registry has been started again. -/
theorem periods_of_reaches
    {g₀ : Registry}
    (unstarted : g₀.Unstarted)
    (reaches : g₀.Reaches g) :
    g.Periods := by
  have hregular : g.Regular := unstarted.regular.reaches reaches
  exact
    { flags := hregular.flags
      live := hregular.live
      during := by
        intro hrunning g' hperiod
        obtain ⟨hrunning', htoken⟩ := token_of_reachesRunning hregular hrunning hperiod
        have hregular' := hregular.reaches (ReachesRunning.reaches hperiod)
        exact ⟨htoken, htoken ▸ hregular'.live hrunning'⟩
      ends := fun hrunning g' hreaches => ends_of_reaches hregular hrunning hreaches
      after := by
        intro hrunning m h g' hperiod halts hafter
        have hregular' := hregular.reaches (ReachesRunning.reaches hperiod)
        rw [← (token_of_reachesRunning hregular hrunning hperiod).2]
        exact Reaches.cancelled hafter (halts.cancelled hregular'.steady).2.2.2
      between := by
        intro h g' halts hhalted
        obtain ⟨hstopped, -, htoken, hcancelled⟩ := halts.cancelled hregular.steady
        exact (cancelled_of_reachesHalted (hregular.step halts.step) hstopped
          (htoken.symm ▸ hcancelled) hhalted).2.2
      current := fun g' hreaches => live_token_eq hreaches
      next := by
        intro g' h hreaches halts
        by_contra hlive
        have hbefore : ¬ g'.IsCancelled g.shutdownToken := fun hcancelled =>
          hlive (Reaches.cancelled (.single halts.step) hcancelled)
        rw [← live_token_eq hreaches hbefore] at hlive
        exact hlive (halts.cancelled (hregular.reaches hreaches).steady).2.2.2
      stops := by
        intro hrunning
        refine ⟨⟨hrunning, _, .refl, rfl⟩, ?_, ?_⟩
        · intro limit
          obtain ⟨h, hreaches, hstop⟩ := g.stop_eq hrunning limit
          rw [hstop]
          exact hreaches.trans (reaches_waitFor _ _ _ _)
        · rw [forceStop, if_pos hrunning]
          exact reaches_log _ _ _ _
      reads := hregular.attentive.reads
      retries := by
        intro h g' halts hafter r run d s entry repeats follows
        have hregular' := hregular.step halts.step
        obtain ⟨-, -, htoken, hcancelled⟩ := halts.cancelled hregular.steady
        exact hregular'.stays_cancelled hafter entry follows
          (hregular'.cancelled_of_follows (htoken.symm ▸ hcancelled)
            (List.mem_of_getElem? entry) repeats follows) }

end Spans

/-- A registry that comes from a new builder, whatever its chain, has never been started. -/
theorem unstarted_build
    {e : Executor}
    (engine : e.running = false)
    (timers : e.timers = [])
    (jobs : e.jobs = [])
    (runs : e.runs = [])
    (b : Builder)
    (executor : b.executor = (Builder.new e).executor)
    (signal : b.signal = (Builder.new e).signal)
    (driven : Bool) :
    (b.build driven).Unstarted := by
  have hexecutor : (b.build driven).executor = (Builder.new e).executor := executor
  have htoken : (b.build driven).shutdownToken = e.tokens.table.length := by
    show b.executor.signalToken b.signal = _
    rw [executor, signal]
    show ((e.signals ++ [e.tokens.table.length])[e.signals.length]?).getD 0 = _
    rw [List.getElem?_concat_length, Option.getD_some]
  refine ⟨rfl, hexecutor ▸ engine, hexecutor ▸ timers, hexecutor ▸ jobs, hexecutor ▸ runs, ?_, ?_⟩
  · show b.signal < b.executor.signals.length
    rw [executor, signal]
    show e.signals.length < (e.signals ++ [_]).length
    simp
  · rw [htoken, hexecutor]
    refine ⟨⟨[], false⟩, List.getElem?_concat_length, Or.inr fun a ha => ?_⟩
    obtain rfl := List.mem_singleton.1 ha
    show e.tokens.table.length < (e.tokens.table ++ [_]).length ∧ _ ∉ e.timers.map Timer.token
    simp [timers]

/-- The builder of a registry that repeats what fails, up to three times. -/
def patientBuilder : Builder :=
  let b := Builder.new (.atRest .epoch)
  { b with extra := [.retry b.signal 3 Span.second] }

/-- The registry when its only job has failed once and pauses before it is repeated. -/
def pausing : Registry :=
  let calls : List Attempt := [{ ending := .fail "down" }]
  let added := (Operation.add "ping" .null (.ofList calls) everySecond).perform
    (patientBuilder.build true)
  (Operation.start.perform added).onExecutor fun e => e.settle.passTo 1500

theorem reaches_pausing : (patientBuilder.build true).Reaches pausing := by
  have hadded := (patientBuilder.build true).reaches_perform
    (.add "ping" .null (.ofList [{ ending := .fail "down" }]) everySecond)
  have hstarted := hadded.trans (reaches_perform _ .start)
  exact hstarted.trans (reaches_of_drifts _
    ((Executor.drifts_settle _).trans (Executor.drifts_passUntil _ _ _)))

/-- The registry after it has been stopped and started once more, before any task has moved. -/
def restarted : Registry :=
  Operation.start.perform (Operation.forceStop.perform pausing)

/-- The run that pauses follows the token of the first period, which is cancelled in the second
one, and can stop. -/
theorem periods_of_reaches_restarted :
    (patientBuilder.build true).Unstarted ∧
      (patientBuilder.build true).Reaches pausing ∧
      pausing.Reaches restarted ∧
      restarted.running = true ∧
      ¬ restarted.IsCancelled restarted.shutdownToken ∧
      restarted.IsCancelled pausing.shutdownToken ∧
      ∃ run, restarted.executor.runs[0]? = some run ∧
        run.shutdown? 2 = some pausing.shutdownToken ∧ ∃ f frames repeated,
          restarted.executor.stopRepeating 0 run frames repeated f "shutdown" ∈
            restarted.executor.moves (.run 0) := by
  have hunstarted : (patientBuilder.build true).Unstarted :=
    unstarted_build (e := .atRest .epoch) rfl rfl rfl rfl patientBuilder rfl rfl true
  have hpausing : pausing.running = true := by decide +kernel
  have hrestarted : restarted.running = true := by decide +kernel
  have hperiods : pausing.Periods := periods_of_reaches hunstarted reaches_pausing
  obtain ⟨halts, -, hforced⟩ := hperiods.stops hpausing
  have hafter : pausing.halt.Reaches restarted := by
    have hstop : (Operation.forceStop.perform pausing) = pausing.forceStop := rfl
    exact (hstop ▸ hforced).trans (reaches_perform _ .start)
  have hreaches : pausing.Reaches restarted := .head halts.step hafter
  have hlater : restarted.Periods :=
    periods_of_reaches hunstarted (reaches_pausing.trans hreaches)
  have hcancelled := hperiods.after hpausing _ _ _ .refl halts hafter
  have hrun : (restarted.executor.runs[0]?).any (fun run =>
      run.shutdown? 2 == some pausing.shutdownToken && run.stack.length == 3 &&
        run.control == .pausing (.failed "down")) = true := by
    decide +kernel
  obtain ⟨run, hrun, hstate⟩ := (Option.any_eq_true ..).1 hrun
  simp only [Bool.and_eq_true, beq_iff_eq] at hstate
  obtain ⟨⟨hfollows, hinnermost⟩, hcontrol⟩ := hstate
  have hregular := hunstarted.regular.reaches (reaches_pausing.trans hreaches)
  exact ⟨hunstarted, reaches_pausing, hreaches, hrestarted, hlater.live hrestarted, hcancelled,
    run, hrun, hfollows, _, Executor.stopRepeating_mem_moves hregular.attentive.poised hrun
      hcontrol hinnermost hfollows hcancelled⟩

end Registry
end Timetable
