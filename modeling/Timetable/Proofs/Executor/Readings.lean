import Timetable.Proofs.Executor.Closing
import Timetable.Proofs.Executor.Episodes

/-!
# The tokens of a signal and who follows them

A signal has one current token at a time, and is given another one only when that is
cancelled.  So a token that was current once is current still, or cancelled for good.
The same holds of the tokens that repeating runs follow: a run reads the current token
of the signal when it enters the layer, and keeps it until it leaves.

Main results:

* a signal keeps its token until that is cancelled (Act.signalToken);
* what the executor does by itself, and what is done to timers and jobs, leaves a token
  alone that is out of the reach of timers (spares_drifts, spares_close);
* a run follows the token that it has read, and no other, until it leaves the layer
  (Acts.shutdown);
* a token that a run follows is the current one or cancelled (Reads.act), and a run that
  pauses can stop when it is cancelled (stopRepeating_mem_moves).
-/

namespace Timetable

/-- The shutdown token that a frame follows. -/
def Frame.shutdown? : Frame → Option TokenId
  | retry shutdown _ _ _ => some shutdown
  | _ => none

/-- The shutdown token that a run follows in the layer at a depth, if it is inside that layer
and the layer repeats. -/
def Run.shutdown?
    (run : Run)
    (depth : Nat) :
    Option TokenId :=
  run.stack.reverse[depth]?.bind Frame.shutdown?

/-- The layer at a depth repeats, and follows the signal. -/
def Chain.Repeats
    (chain : Chain)
    (depth : Nat)
    (signal : SignalId) :
    Prop :=
  ∃ limit interval, chain[depth]? = some (.retry signal limit interval)

namespace Executor

variable {c : Chain} {e e' : Executor}

section Signals

/-- The signals, the engine and one of the tokens are as before. -/
structure Spares
    (s : TokenId)
    (e e' : Executor) :
    Prop where
  signals : e'.signals = e.signals
  running : e'.running = e.running
  token : e'.tokens.table[s]? = e.tokens.table[s]?

theorem Spares.refl
    (s : TokenId)
    (e : Executor) :
    Spares s e e :=
  ⟨rfl, rfl, rfl⟩

theorem Spares.trans
    {s : TokenId}
    {a b d : Executor}
    (hab : Spares s a b)
    (hbd : Spares s b d) :
    Spares s a d :=
  ⟨hbd.signals.trans hab.signals, hbd.running.trans hab.running, hbd.token.trans hab.token⟩

theorem Spares.isCancelled
    {s : TokenId}
    (h : Spares s e e') :
    e'.isCancelled s = e.isCancelled s :=
  congrArg (fun state => state.any TokenState.cancelled) h.token

theorem Spares.signalToken
    {s : TokenId}
    (h : Spares s e e')
    (signal : SignalId) :
    e'.signalToken signal = e.signalToken signal := by
  rw [Executor.signalToken, h.signals, Executor.signalToken]

/-- The token has been made and is out of the reach of timers: it is cancelled already, or
neither it nor a token above it is a timer's or still to be made. -/
def Steady
    (e : Executor)
    (s : TokenId) :
    Prop :=
  ∃ state, e.tokens.table[s]? = some state ∧
    (state.cancelled = true ∨
      ∀ a ∈ s :: state.above, a < e.tokens.table.length ∧ a ∉ e.timers.map Timer.token)

theorem Steady.known
    {s : TokenId}
    (h : e.Steady s) :
    s < e.tokens.table.length := by
  obtain ⟨state, entry, -⟩ := h
  exact (List.getElem?_eq_some_iff.1 entry).1

theorem steady_of_isCancelled
    {s : TokenId}
    (h : e.isCancelled s = true) :
    e.Steady s := by
  obtain ⟨state, entry, hcancelled⟩ := (Option.any_eq_true ..).1 h
  exact ⟨state, entry, Or.inl hcancelled⟩

/-- A token that was no timer's when it was made never becomes one. -/
theorem Acts.not_mem_timers
    (h : Acts c e e')
    {a : TokenId}
    (known : a < e.tokens.table.length)
    (foreign : a ∉ e.timers.map Timer.token) :
    a < e'.tokens.table.length ∧ a ∉ e'.timers.map Timer.token := by
  induction h with
  | refl => exact ⟨known, foreign⟩
  | tail _ hact ih =>
      refine ⟨Nat.lt_of_lt_of_le ih.1 hact.tokens.length, ?_⟩
      rcases hact.map_token with hsame | ⟨hmore, -⟩
      · rw [hsame]
        exact ih.2
      · rw [hmore, List.mem_append, List.mem_singleton]
        rintro (hold | rfl)
        · exact ih.2 hold
        · exact absurd ih.1 (Nat.lt_irrefl _)

/-- A token that is left alone stays out of the reach of timers. -/
theorem Steady.acts
    {s : TokenId}
    (steady : e.Steady s)
    (h : Acts c e e')
    (spares : Spares s e e') :
    e'.Steady s := by
  obtain ⟨state, entry, hreach⟩ := steady
  refine ⟨state, spares.token.trans entry, hreach.imp id fun hfar a ha => ?_⟩
  exact h.not_mem_timers (hfar a ha).1 (hfar a ha).2

theorem running_of_mem_moves
    {m : Mover}
    (h : e' ∈ e.moves m) :
    e'.running = e.running := by
  cases m with
  | run r =>
      obtain ⟨run, run', -, hstep⟩ := runStep_of_mem_runMoves h
      exact hstep.running
  | timer n =>
      obtain ⟨t, t', -, hdriven⟩ := driven_of_mem_timerMoves h
      exact hdriven.running
  | waiter n =>
      obtain ⟨w, w', -, -, hstep⟩ := waiterStep_of_mem_waiterMoves h
      cases hstep with
      | pass _ _ hquiet => exact hquiet.running
      | finish hquiet => exact hquiet.running

theorem spares_drift
    (s : TokenId)
    (h : e.Drift e') :
    Spares s e e' := by
  cases h with
  | move m h =>
      have htimeless := timeless_of_mem_moves h
      exact ⟨htimeless.signals, running_of_mem_moves h, by rw [htimeless.tokens]⟩
  | exhaust | clock | line | note | wait | launch => exact ⟨rfl, rfl, rfl⟩

/-- What the executor does by itself leaves all tokens alone. -/
theorem spares_drifts
    (s : TokenId)
    (h : e.Drifts e') :
    Spares s e e' := by
  induction h with
  | refl => exact .refl s e
  | tail _ hdrift ih => exact ih.trans (spares_drift s hdrift)

/-- Cancelling the token of a timer leaves a token alone that is out of reach. -/
theorem spares_cancel
    {s t : TokenId}
    (steady : e.Steady s)
    (timers : t ∈ e.timers.map Timer.token) :
    Spares s e (e.cancel t) := by
  obtain ⟨⟨above, cancelled⟩, entry, hreach⟩ := steady
  refine ⟨rfl, rfl, ?_⟩
  have hcancelled : (cancelled || s == t || above.contains t) = cancelled := by
    rcases hreach with hdone | hfar
    · obtain rfl : cancelled = true := hdone
      rfl
    · have hne : s ≠ t := by
        rintro rfl
        exact (hfar _ List.mem_cons_self).2 timers
      have hnot : t ∉ above := fun ht => (hfar _ (List.mem_cons_of_mem _ ht)).2 timers
      simp [hne, hnot]
  simpa [cancel, Tokens.cancel, entry] using hcancelled

/-- Closing a timer leaves a token alone that is out of reach. -/
theorem spares_close
    {s : TokenId}
    (steady : e.Steady s)
    (n : Nat) :
    Spares s e (e.close n) := by
  unfold close
  cases ht : e.timers[n]? with
  | none => exact .refl s e
  | some t =>
      have htoken : t.token ∈ e.timers.map Timer.token :=
        List.mem_map_of_mem (List.mem_of_getElem? ht)
      have hcancel := spares_cancel steady htoken
      exact ⟨hcancel.signals, hcancel.running, hcancel.token⟩

theorem spares_addJob
    {s : TokenId}
    (known : s < e.tokens.table.length)
    (c : Chain)
    (key : String)
    (value : Value)
    (script : Script) :
    Spares s e (e.addJob c key value script).1 :=
  ⟨rfl, rfl, List.getElem?_append_left known⟩

theorem spares_arm
    {s : TokenId}
    (known : s < e.tokens.table.length)
    (schedule : Schedule)
    (j : JobId)
    (driven : Bool) :
    Spares s e (e.arm schedule j driven).1 :=
  ⟨rfl, rfl, List.getElem?_append_left known⟩

/-- A signal that is armed again has a live token, which no timer reaches. -/
theorem steady_rearm
    {signal : SignalId}
    (known : e.Known)
    (exists_signal : signal < e.signals.length)
    (steady : e.Steady (e.signalToken signal)) :
    (e.rearm signal).Steady ((e.rearm signal).signalToken signal) ∧
      (e.rearm signal).isTriggered signal = false := by
  unfold rearm
  split
  · have htoken : (e.signals.set signal e.tokens.table.length)[signal]?.getD 0 =
        e.tokens.table.length := by
      rw [List.getElem?_set_self exists_signal, Option.getD_some]
    have hentry : (e.tokens.table ++ [⟨[], false⟩])[e.tokens.table.length]? =
        some (⟨[], false⟩ : TokenState) :=
      List.getElem?_concat_length
    refine ⟨?_, ?_⟩
    · show Steady _ ((e.signals.set signal e.tokens.table.length)[signal]?.getD 0)
      rw [htoken]
      refine ⟨_, hentry, Or.inr fun a ha => ?_⟩
      obtain rfl := List.mem_singleton.1 ha
      refine ⟨by simp [freshToken, Tokens.fresh], fun htimer => ?_⟩
      obtain ⟨t, ht, hEq⟩ := List.mem_map.1 htimer
      exact absurd (hEq ▸ known t ht) (Nat.lt_irrefl _)
    · show Tokens.isCancelled _ ((e.signals.set signal e.tokens.table.length)[signal]?.getD 0) =
        false
      rw [htoken]
      simp [Tokens.isCancelled, freshToken, Tokens.fresh]
  · rename_i hlive
    exact ⟨steady, by simpa using hlive⟩

/-- **A signal keeps its token until that is cancelled.** -/
theorem Act.signalToken
    (h : Act c e e')
    (signal : SignalId) :
    e'.signalToken signal = e.signalToken signal ∨
      e.isCancelled (e.signalToken signal) = true := by
  cases h with
  | startEngine => exact Or.inl rfl
  | change h =>
      cases h with
      | drift h => exact Or.inl ((spares_drift 0 h).signalToken signal)
      | close n =>
          rcases e.close_eq n with hEq | ⟨t, hEq⟩ <;>
            · rw [hEq]
              exact Or.inl rfl
      | rearm s =>
          unfold rearm
          split
          · rename_i htriggered
            by_cases hs : s = signal
            · exact Or.inr (hs ▸ htriggered)
            · left
              show ((e.signals.set s _)[signal]?).getD 0 = _
              rw [List.getElem?_set_ne hs, Executor.signalToken]
          · exact Or.inl rfl
      | giveUp | trigger | stopEngine | addJob | arm => exact Or.inl rfl

/-- Signals are neither made nor lost. -/
theorem Acts.length_signals (h : Acts c e e') : e'.signals.length = e.signals.length := by
  induction h with
  | refl => rfl
  | tail _ hact ih =>
      rw [← ih]
      cases hact with
      | startEngine => rfl
      | change h =>
          cases h with
          | drift h => rw [(spares_drift 0 h).signals]
          | close n =>
              rcases Executor.close_eq _ n with hEq | ⟨t, hEq⟩
              · rw [hEq]
              · rw [hEq]
                rfl
          | rearm s =>
              unfold rearm
              split
              · exact List.length_set
              · rfl
          | giveUp | trigger | stopEngine | addJob | arm => rfl

theorem Acts.isCancelled
    (h : Acts c e e')
    {s : TokenId}
    (cancelled : e.isCancelled s = true) :
    e'.isCancelled s = true := by
  induction h with
  | refl => exact cancelled
  | tail _ hact ih => exact hact.tokens.cancelled _ ih

/-- A token that was the current one of a signal is so still, or has been cancelled. -/
theorem Acts.signalToken
    (h : Acts c e e')
    (signal : SignalId) :
    e'.signalToken signal = e.signalToken signal ∨
      e'.isCancelled (e.signalToken signal) = true := by
  induction h with
  | refl => exact Or.inl rfl
  | tail _ hact ih =>
      rcases ih with hsame | hcancelled
      · rcases hact.signalToken signal with hsame' | hcancelled
        · exact Or.inl (hsame'.trans hsame)
        · rw [hsame] at hcancelled
          exact Or.inr (hact.tokens.cancelled _ hcancelled)
      · exact Or.inr (hact.tokens.cancelled _ hcancelled)

/-- Moves make no jobs, and whatever else makes one gives it the chain. -/
theorem Act.made (h : Act c e e') :
    e'.jobs.length = e.jobs.length ∨
      ∃ job : Job, e'.jobs = e.jobs ++ [job] ∧ job.layers = c.layers := by
  cases h with
  | startEngine => exact Or.inl rfl
  | change h =>
      cases h with
      | drift h =>
          left
          cases h with
          | move m h =>
              cases m with
              | run r =>
                  obtain ⟨run, run', -, hstep⟩ := runStep_of_mem_runMoves h
                  exact hstep.jobs.length
              | timer n =>
                  obtain ⟨t, t', -, hdriven⟩ := driven_of_mem_timerMoves h
                  rw [hdriven.jobs]
              | waiter n => rw [(same_of_mem_waiterMoves h).2]
          | exhaust | clock | line | note | wait | launch => rfl
      | close n =>
          left
          rcases e.close_eq n with hEq | ⟨t, hEq⟩
          · rw [hEq]
          · rw [hEq]
            rfl
      | rearm s => exact Or.inl (e.quiet_rearm s).jobs.length
      | addJob key value script => exact Or.inr ⟨_, rfl, rfl⟩
      | giveUp | trigger | stopEngine | arm => exact Or.inl rfl

end Signals

section Runs

variable {r : RunId} {run run' : Run} {job job' : Job} {signs : List Sign}

/-- A run that goes into a layer follows what it has followed, and the frame on top. -/
theorem shutdown_push
    {f : Frame}
    (stack : run'.stack = f :: run.stack)
    (d : Nat) :
    run'.shutdown? d = run.shutdown? d ∨
      d = run.stack.length ∧ run.shutdown? d = none ∧ run'.shutdown? d = f.shutdown? := by
  have hlength : run.stack.reverse.length = run.stack.length := List.length_reverse
  simp only [Run.shutdown?, stack, List.reverse_cons]
  rcases Nat.lt_trichotomy d run.stack.length with hd | rfl | hd
  · left
    rw [List.getElem?_append_left (by omega)]
  · right
    rw [← hlength, List.getElem?_concat_length, List.getElem?_eq_none le_rfl]
    exact ⟨rfl, rfl, rfl⟩
  · left
    rw [List.getElem?_eq_none (by simp; omega), List.getElem?_eq_none (by omega)]

/-- A run that leaves a layer follows what it has followed outside. -/
theorem shutdown_pop
    {f : Frame}
    (stack : run.stack = f :: run'.stack)
    (d : Nat) :
    run'.shutdown? d = run.shutdown? d ∨ run'.shutdown? d = none := by
  rcases shutdown_push stack d with hsame | ⟨-, hnone, -⟩
  · exact Or.inl hsame.symm
  · exact Or.inr hnone

/-- **With a move a run follows what it has followed, leaves a layer, or reads the current
token of the signal of a layer that it enters.** -/
theorem Walk.shutdown
    (h : e.Walk r run job run' job' signs)
    (d : Nat) :
    run'.shutdown? d = run.shutdown? d ∨
      run'.shutdown? d = none ∨
      run.shutdown? d = none ∧ ∃ own, job.chain.Repeats d own ∧
        run'.shutdown? d = some (e.signalToken own) := by
  have hpush : ∀ {f : Frame}, run'.stack = f :: run.stack → f.shutdown? = none →
      run'.shutdown? d = run.shutdown? d := by
    intro f stack hf
    rcases shutdown_push stack d with hsame | ⟨-, hnone, hnew⟩
    · exact hsame
    · rw [hnone, hnew, hf]
  cases h with
  | enter control layer opens =>
      cases opens with
      | retry own limit interval last =>
          refine Or.imp id (fun hread => Or.inr ?_) (shutdown_push rfl d)
          obtain ⟨rfl, hnone, hnew⟩ := hread
          exact ⟨hnone, own, ⟨limit, interval, Job.chain_getElem? layer⟩, hnew⟩
      | recover | track | skip | delay | trace | tag => exact Or.inl (hpush rfl rfl)
  | take | letIn => exact Or.inl (hpush rfl rfl)
  | pause control stack | again control stack =>
      left
      have hmap : ∀ f f' : Frame, ∀ frames, f'.shutdown? = f.shutdown? →
          ((f' :: frames).reverse[d]?).bind Frame.shutdown? =
            ((f :: frames).reverse[d]?).bind Frame.shutdown? := by
        intro f f' frames hsame
        rw [List.reverse_cons, List.reverse_cons]
        rcases Nat.lt_trichotomy d frames.reverse.length with hd | rfl | hd
        · rw [List.getElem?_append_left hd, List.getElem?_append_left hd]
        · rw [List.getElem?_concat_length, List.getElem?_concat_length]
          exact hsame
        · rw [List.getElem?_eq_none (by simpa using hd), List.getElem?_eq_none (by simpa using hd)]
      rw [Run.shutdown?, Run.shutdown?, stack]
      exact hmap _ _ _ rfl
  | bar control stack | rescue control stack | overflow control stack | settle control stack
  | stop control stack | pass control stack | unwind control stack =>
      exact (shutdown_pop stack d).imp id Or.inl
  | skip | miss | join | call | wake | proceed | answer | burst | finish | escape =>
      exact Or.inl rfl

/-- A run that pauses has its next attempt before it. -/
def Poised (e : Executor) : Prop :=
  ∀ run ∈ e.runs, ∀ f, run.control = .pausing f →
    ∃ shutdown ctx repeated due frames,
      run.stack = .retry shutdown ctx repeated (some due) :: frames

theorem Poised.episode
    (poised : e.Poised)
    (episode : e.Episode e') :
    e'.Poised := by
  refine episode.forall_runs poised ?_ ?_
  · rintro run ⟨-, ctx, hcontrol⟩ f hpausing
    rw [hcontrol] at hpausing
    cases hpausing
  · intro r run run' job job' signs _ _ hwalk f hpausing
    cases hwalk with
    | pause => exact ⟨_, _, _, _, _, rfl⟩
    | call control =>
        cases hsleep : (job.task.script job.task.calls e.calls.length).sleep <;>
          simp [callControl, hsleep] at hpausing
    | enter | skip | miss | join | take | letIn | wake | proceed | answer | burst | bar | rescue
    | overflow | settle | again | stop | pass | unwind | finish | escape => cases hpausing

/-- A run that pauses can stop when the token that it follows is cancelled. -/
theorem stopRepeating_mem_moves
    (poised : e.Poised)
    (entry : e.runs[r]? = some run)
    {f : JobFailure}
    (pausing : run.control = .pausing f)
    {d : Nat}
    {s : TokenId}
    (innermost : run.stack.length = d + 1)
    (follows : run.shutdown? d = some s)
    (cancelled : e.isCancelled s = true) :
    ∃ frames repeated, e.stopRepeating r run frames repeated f "shutdown" ∈ e.moves (.run r) := by
  obtain ⟨shutdown, ctx, repeated, due, frames, hstack⟩ :=
    poised run (List.mem_of_getElem? entry) f pausing
  obtain rfl : frames.length = d := by simpa [hstack] using innermost
  have hshutdown : shutdown = s := by
    rw [Run.shutdown?, hstack, List.reverse_cons, ← List.length_reverse,
      List.getElem?_concat_length] at follows
    exact Option.some.inj follows
  refine ⟨frames, repeated, ?_⟩
  simp [moves, runMoves, entry, pausing, pauseMoves, hstack, hshutdown, cancelled]

/-- **A run follows the token that it has read, and no other, until it leaves the layer.** -/
theorem Acts.shutdown
    (orderly : e.Orderly)
    (h : Acts c e e')
    (entry : e.runs[r]? = some run)
    {d : Nat}
    {s : TokenId}
    (follows : run.shutdown? d = some s) :
    (∃ run', e'.runs[r]? = some run' ∧ run'.shutdown? d = some s) ∨
      ∃ m left, Acts c e m ∧ Acts c m e' ∧ m.runs[r]? = some left ∧ left.shutdown? d = none := by
  suffices hboth : e'.Orderly ∧ ((∃ run', e'.runs[r]? = some run' ∧ run'.shutdown? d = some s) ∨
      ∃ m left, Acts c e m ∧ Acts c m e' ∧ m.runs[r]? = some left ∧ left.shutdown? d = none) from
    hboth.2
  induction h with
  | refl => exact ⟨orderly, Or.inl ⟨run, entry, follows⟩⟩
  | @tail a b hacts hact ih =>
      obtain ⟨horderly, hstays⟩ := ih
      have hepisode := (Befalls.act hact).episode horderly.rooted
      refine ⟨horderly.episode hepisode, ?_⟩
      rcases hstays with ⟨run₁, hrun₁, hfollows⟩ | ⟨m, left, ham, hma, hleft⟩
      · obtain ⟨run₂, hrun₂, rfl | ⟨job, job', signs, -, -, hwalk⟩⟩ := hepisode.run hrun₁
        · exact Or.inl ⟨_, hrun₂, hfollows⟩
        · rcases hwalk.shutdown d with hsame | hnone | ⟨hnone, -⟩
          · exact Or.inl ⟨run₂, hrun₂, hsame.trans hfollows⟩
          · exact Or.inr ⟨b, run₂, hacts.tail hact, .refl, hrun₂, hnone⟩
          · rw [hfollows] at hnone
            cases hnone
      · exact Or.inr ⟨m, left, ham, hma.tail hact, hleft⟩

/-- All jobs are decorated with a chain. -/
def Decorated
    (c : Chain)
    (e : Executor) :
    Prop :=
  ∀ job ∈ e.jobs, job.chain = c

theorem Decorated.act
    (decorated : Decorated c e)
    (orderly : e.Orderly)
    (h : Act c e e') :
    Decorated c e' := by
  have hepisode := (Befalls.act h).episode orderly.rooted
  intro job hmem
  obtain ⟨j, hjob⟩ := List.mem_iff_getElem?.1 hmem
  rcases hepisode.chain_before orderly hjob with ⟨old, hold, hchain⟩ | hle
  · rw [← hchain]
    exact decorated old (List.mem_of_getElem? hold)
  · rcases h.made with hlength | ⟨new, hjobs, hlayers⟩
    · have hlt := (List.getElem?_eq_some_iff.1 hjob).1
      omega
    · rw [hjobs] at hjob
      rcases getElem?_concat_cases hjob with hold | ⟨-, rfl⟩
      · exact absurd (List.getElem?_eq_some_iff.1 hold).1 (Nat.not_lt.2 hle)
      · rw [Job.chain, hlayers, Chain.map_wrapper_layers]

/-- What runs follow in layers of a signal is its current token, or cancelled. -/
def Reads
    (c : Chain)
    (signal : SignalId)
    (e : Executor) :
    Prop :=
  ∀ run ∈ e.runs, ∀ d s, c.Repeats d signal → run.shutdown? d = some s →
    e.isCancelled s = true ∨ s = e.signalToken signal

/-- **What a run follows is the current token or cancelled, whatever happens.** -/
theorem Reads.act
    {signal : SignalId}
    (reads : Reads c signal e)
    (orderly : e.Orderly)
    (decorated : Decorated c e)
    (h : Act c e e') :
    Reads c signal e' := by
  have hcurrent : ∀ {s}, e.isCancelled s = true ∨ s = e.signalToken signal →
      e'.isCancelled s = true ∨ s = e'.signalToken signal := by
    rintro s (hcancelled | rfl)
    · exact Or.inl (h.tokens.cancelled _ hcancelled)
    · rcases h.signalToken signal with hsame | hcancelled
      · exact Or.inr hsame.symm
      · exact Or.inl (h.tokens.cancelled _ hcancelled)
  have hepisode := (Befalls.act h).episode orderly.rooted
  refine hepisode.forall_runs (fun run hrun d s hd hs => hcurrent (reads run hrun d s hd hs)) ?_ ?_
  · intro run hunmoved d s _ hs
    simp [Run.shutdown?, hunmoved.1] at hs
  · intro r run run' job job' signs hrun hjob hwalk d s hd hs
    rcases hwalk.shutdown d with hsame | hnone | ⟨-, own, ⟨limit', interval', hown⟩, hread⟩
    · exact hcurrent (reads run hrun d s hd (hsame.symm.trans hs))
    · rw [hnone] at hs
      cases hs
    · -- The job is decorated with the chain, so the layer's signal is the one in question.
      obtain ⟨limit, interval, hlayer⟩ := hd
      rw [decorated job (List.mem_of_getElem? hjob), hlayer] at hown
      cases hown
      rw [hread] at hs
      exact hcurrent (Or.inr (Option.some.inj hs).symm)

/-- The notes of all layers are right, all jobs are decorated with a chain, and the runs heed
the tokens of a signal. -/
structure Attentive
    (c : Chain)
    (signal : SignalId)
    (e : Executor) :
    Prop where
  orderly : e.Orderly
  decorated : Decorated c e
  reads : Reads c signal e
  poised : e.Poised

theorem attentive_of_blank
    {signal : SignalId}
    (runs : e.runs = [])
    (jobs : e.jobs = []) :
    Attentive c signal e :=
  ⟨orderly_of_blank runs jobs, by simp [Decorated, jobs], by simp [Reads, runs],
    by simp [Poised, runs]⟩

theorem Attentive.acts
    {signal : SignalId}
    (attentive : Attentive c signal e)
    (h : Acts c e e') :
    Attentive c signal e' := by
  induction h with
  | refl => exact attentive
  | tail _ hact ih =>
      have hepisode := (Befalls.act hact).episode ih.orderly.rooted
      exact ⟨ih.orderly.episode hepisode, ih.decorated.act ih.orderly hact,
        ih.reads.act ih.orderly ih.decorated hact, ih.poised.episode hepisode⟩

end Runs

end Executor
end Timetable
