import Timetable.Proofs.Executor.Closing
import Timetable.Proofs.Executor.Retrying

/-!
# Calling off a repetition

A layer that repeats heeds two tokens, that of the context and the one that its signal had when
the run came, and it heeds them in one place: while it pauses.  There it also waits for the tick
of the next attempt, and where both have come, either may be taken.  So a cancellation ends the
repetition, unless the tick has come too: then another attempt may begin, and after it, if it
takes longer than the interval, yet another one.

Main results:

* with a token cancelled, a run that pauses can come away (Stage.moves_calledOff), and it can go
  on exactly if its tick has come (Stage.moves_paused);
* the tick has come only where an attempt has taken longer than the interval, if the clock goes
  on only while the run cannot move (Arrival.tick_of_patient);
* no attempt begins after a cancellation but the first one and those for which the tick had come
  (ends_when_cancelled), and a run that goes on after a cancellation (goes_on_cancelled).
-/

namespace Timetable
namespace Executor

variable {e e' : Executor} {r : RunId} {run run' : Run} {job : Job} {d : Nat}

/-- The tick for which a run waits has come. -/
def TickPassed
    (e : Executor)
    (r : RunId)
    (d : Nat) :
    Prop :=
  ∃ due, e.due? r d = some due ∧ due ≤ e.nanos

/-- A run pauses, and its tick has come. -/
def TickDue
    (e : Executor)
    (r : RunId)
    (d : Nat) :
    Prop :=
  (∃ f, e.station r d = .pausing f) ∧ e.TickPassed r d

/-- An attempt has ended after the tick of the next one had come. -/
def Overran
    (e : Executor)
    (r : RunId)
    (d : Nat) :
    Prop :=
  (∃ x, e.station r d = .handing x) ∧ e.TickPassed r d

section Tokens

variable {t : TokenId} {l : List (Executor × Executor)}

/-- What is cancelled stays so. -/
theorem Befalls.cancelled
    (befalls : e.Befalls e')
    (cancelled : e.isCancelled t = true) :
    e'.isCancelled t = true := by
  cases befalls with
  | cancel u => exact (Tokens.later_cancel e.tokens u).cancelled t cancelled
  | act h => exact h.tokens.cancelled t cancelled

theorem Path.cancelled
    (path : Path (Visiting r d) e l e')
    (cancelled : e.isCancelled t = true) :
    e'.isCancelled t = true := by
  induction path with
  | start => exact cancelled
  | next _ last ih => exact last.1.cancelled ih

end Tokens

section Stages

variable {cancels overflows : Prop} {limit : Int} {interval : Span} {signal : SignalId}
  {last : Option Outcome} {ctx : Context} {below : List Frame} {t : Option TokenId} {n k : Nat}
  {xs : List Result}

/-- A run that comes away does so with the result of the last attempt, or because of the
clock. -/
theorem Stage.departed_last
    (stage : Stage cancels overflows limit ctx below t n xs k run)
    {x : Result}
    (departed : run.departed? below.length = some x) :
    (xs.length = n ∧ xs.getLast? = some x) ∨
      (n = 1 ∧ x = .burst clockOverflow ∧ overflows) := by
  rcases stage.of_departed departed with ⟨fs, rfl, rfl, -, -⟩ | ⟨hn, hx, -, hnever⟩
  · exact Or.inl ⟨by simp, List.getLast?_concat⟩
  · exact Or.inr ⟨hn, hx, hnever⟩

/-- When an attempt has ended, the run can do nothing but come away or pause. -/
theorem Stage.moves_handed
    (stage : Stage cancels overflows limit ctx below t n xs k run)
    (entry : e.runs[r]? = some run)
    (decorated : e.jobs[run.job]? = some job)
    (layer : job.layers[below.length]? = some (.retry signal limit interval last))
    {x : Result}
    (handing : run.station below.length = .handing x) :
    ∃ e', e.moves (.run r) = [e'] ∧
      (e'.station r below.length = .away ∨ ∃ f, e'.station r below.length = .pausing f) := by
  let s : Nat → Result := fun i => (xs[i - 1]?).getD (.outcome .ok)
  have htold : ∀ (i : Nat) (x : Result), xs[i]? = some x → s (i + 1) = x := by
    intro i x hx
    simp [s, hx]
  obtain ⟨e', hmoves, haway, hpausing⟩ := stage.moves_handing htold entry decorated layer handing
  refine ⟨e', hmoves, ?_⟩
  by_cases hends : e.RunsOut r below.length interval ∨ Enough limit s n
  · exact Or.inl (haway hends)
  · obtain ⟨f, -, hf⟩ := hpausing (fun h => hends (Or.inl h)) fun h => hends (Or.inr h)
    exact Or.inr ⟨f, hf⟩

/-- The tick of a run that pauses has come exactly if the moment in its frame has. -/
theorem tickDue_iff
    {fs : Nat}
    {shutdown : TokenId}
    {due : Nat}
    {f : JobFailure}
    (entry : e.runs[r]? = some run)
    (stack : run.stack = .retry shutdown ctx fs (some due) :: below)
    (control : run.control = .pausing f) :
    e.TickDue r below.length ↔ due ≤ e.nanos := by
  have hdue : e.due? r below.length = some due := due?_of_top entry stack
  have hpausing : ∃ f, e.station r below.length = .pausing f := by
    rw [station_of_entry entry, Run.station_of_top stack rfl, control]
    exact ⟨f, rfl⟩
  rw [TickDue, TickPassed, hdue, and_iff_right hpausing]
  simp

/-- A run that pauses can come away or try again, the latter exactly if its tick has come. -/
theorem Stage.moves_paused
    (stage : Stage cancels overflows limit ctx below t n xs k run)
    (entry : e.runs[r]? = some run)
    {f : JobFailure}
    (pausing : run.station below.length = .pausing f) :
    (∀ e' ∈ e.moves (.run r),
        e'.station r below.length = .away ∨ e'.station r below.length = .trying) ∧
      ((∃ e' ∈ e.moves (.run r), e'.station r below.length = .trying) ↔
        e.TickDue r below.length) := by
  obtain ⟨fs, shutdown, due, hstack, hcontrol, -⟩ := stage.of_pausing pausing
  rw [tickDue_iff entry hstack hcontrol]
  constructor
  · intro e' move
    rcases (mem_moves_pausing_iff _ entry hcontrol hstack).1 move with
      ⟨-, rfl⟩ | ⟨-, rfl⟩ | ⟨-, rfl⟩
    · exact Or.inr (station_repeatAttempt entry)
    · exact Or.inl (station_stopRepeating entry)
    · exact Or.inl (station_stopRepeating entry)
  · constructor
    · rintro ⟨e', move, htrying⟩
      rcases (mem_moves_pausing_iff _ entry hcontrol hstack).1 move with
        ⟨hdue, -⟩ | ⟨-, rfl⟩ | ⟨-, rfl⟩
      · exact hdue
      · rw [station_stopRepeating entry] at htrying
        cases htrying
      · rw [station_stopRepeating entry] at htrying
        cases htrying
    · intro hdue
      exact ⟨_, (mem_moves_pausing_iff _ entry hcontrol hstack).2 (Or.inl ⟨hdue, rfl⟩),
        station_repeatAttempt entry⟩

/-- With a token cancelled, a run that pauses can come away. -/
theorem Stage.moves_calledOff
    (stage : Stage cancels overflows limit ctx below t n xs k run)
    (entry : e.runs[r]? = some run)
    {f : JobFailure}
    (pausing : run.station below.length = .pausing f)
    (cancelled : e.calledOff r below.length ctx = true) :
    ∃ e' ∈ e.moves (.run r), e'.station r below.length = .away := by
  obtain ⟨fs, shutdown, due, hstack, hcontrol, -⟩ := stage.of_pausing pausing
  have hmem := fun e' => mem_moves_pausing_iff e' entry hcontrol hstack
  have hfollowed : e.followed? r below.length = some shutdown := followed?_of_top entry hstack
  rw [calledOff, hfollowed, Option.any_some, Bool.or_eq_true] at cancelled
  rcases cancelled with hcontext | hshutdown
  · exact ⟨_, (hmem _).2 (Or.inr (Or.inr ⟨hcontext, rfl⟩)), station_stopRepeating entry⟩
  · exact ⟨_, (hmem _).2 (Or.inr (Or.inl ⟨hshutdown, rfl⟩)), station_stopRepeating entry⟩

/-- **An attempt begins when the run arrives, or after a pause when its tick has come.** -/
theorem Stage.begins
    (stage : Stage cancels overflows limit ctx below t n xs k run)
    (entry : e.runs[r]? = some run)
    (decorated : e.jobs[run.job]? = some job)
    (layer : job.layers[below.length]? = some (.retry signal limit interval last))
    (visiting : Visiting r below.length e e')
    (began : begins r below.length (e, e') = true) :
    e.station r below.length = .arriving ∨ e.TickDue r below.length := by
  have hstation := station_of_entry entry below.length
  obtain ⟨hidle, htrying⟩ : e.station r below.length ≠ .trying ∧
      e'.station r below.length = .trying := by
    simpa [Executor.begins] using began
  have hmove : e' ∈ e.moves (.run r) := by
    refine (visiting.1.own entry).resolve_left fun hstill => hidle ?_
    rw [hstation, ← station_of_entry hstill, htrying]
  cases hstands : e.station r below.length with
  | arriving => exact Or.inl rfl
  | trying => exact absurd hstands hidle
  | away => exact absurd hstands visiting.2
  | handing x =>
      obtain ⟨e₁, hmoves, hnext⟩ :=
        stage.moves_handed entry decorated layer (hstation.symm.trans hstands)
      rw [hmoves] at hmove
      obtain rfl := List.mem_singleton.1 hmove
      rw [htrying] at hnext
      rcases hnext with h | ⟨f, h⟩ <;> cases h
  | pausing f =>
      exact Or.inr ((stage.moves_paused entry (hstation.symm.trans hstands)).2.1
        ⟨e', hmove, htrying⟩)

/-- The tick for which a run pauses after an attempt is that of its frame, or the first one. -/
theorem due?_attemptEnded
    {shutdown : TokenId}
    {repeated : Nat}
    {due : Option Nat}
    {o : Outcome}
    {f : JobFailure}
    (entry : e.runs[r]? = some run)
    (decorated : e.jobs[run.job]? = some job)
    (layer : job.layers[below.length]? = some (.retry signal limit interval last))
    (pausing : (e.attemptEnded r run below shutdown ctx repeated due o).station r below.length =
      .pausing f) :
    (e.attemptEnded r run below shutdown ctx repeated due o).due? r below.length =
      due.or (firstTick? e.nanos interval.nanos) := by
  rw [station_attemptEnded entry decorated layer] at pausing
  simp only [attemptEnded, retrySettings_of_layer decorated layer]
  cases hnext : due.or (firstTick? e.nanos interval.nanos) with
  | none =>
      rw [hnext] at pausing
      cases pausing
  | some next =>
      rw [hnext] at pausing
      cases o with
      | ok => cases pausing
      | err g =>
          dsimp only at pausing ⊢
          split at pausing
          · cases pausing
          · rename_i hmore
            rw [if_neg hmore]
            have hpresent : r < e.runs.length := (List.getElem?_eq_some_iff.1 entry).1
            refine (due?_of_entry (List.getElem?_set_self hpresent) _).trans ?_
            rw [Run.due?_of_top rfl]
            rfl

/-- The first tick is yet to come. -/
theorem lt_of_firstTick?
    {now interval next : Nat}
    (positive : 0 < interval)
    (first : firstTick? now interval = some next) :
    now < next := by
  obtain ⟨-, hnext⟩ := Option.ite_none_right_eq_some.1 first
  obtain rfl := Option.some.inj hnext
  exact Nat.lt_add_of_pos_right positive

/-- **A run that begins to pause when its tick has come has overrun**, if there is any time
between attempts. -/
theorem Stage.overran
    (stage : Stage cancels overflows limit ctx below t n xs k run)
    (entry : e.runs[r]? = some run)
    (decorated : e.jobs[run.job]? = some job)
    (layer : job.layers[below.length]? = some (.retry signal limit interval last))
    (positive : 0 < interval.nanos)
    {x : Result}
    (handing : run.station below.length = .handing x)
    (move : e' ∈ e.moves (.run r))
    (tick : e'.TickDue r below.length) :
    e.Overran r below.length := by
  obtain ⟨⟨f, hpausing⟩, next, hnext, hcome⟩ := tick
  obtain ⟨fs, shutdown, due, hstack, hcontrol, -⟩ := stage.of_handing handing
  refine ⟨⟨x, (station_of_entry entry _).trans handing⟩, ?_⟩
  have hnanos : e'.nanos = e.nanos := by
    have htimeless := timeless_of_mem_runMoves move
    rw [nanos, nanos, htimeless.now]
  cases hended : run.control with
  | unwinding p =>
      rw [Executor.moves_bursting entry hended hstack] at move
      obtain rfl := List.mem_singleton.1 move
      rw [station_resume (List.getElem?_eq_some_iff.1 entry).1,
        Run.station_of_left rfl (by simp)] at hpausing
      cases hpausing
  | leaving o =>
      rw [Executor.moves_handing entry hended hstack] at move
      obtain rfl := List.mem_singleton.1 move
      rw [due?_attemptEnded entry decorated layer hpausing] at hnext
      refine ⟨next, ?_, hnanos ▸ hcome⟩
      rw [due?_of_top entry hstack]
      cases due with
      | some u => exact hnext
      | none =>
          rw [Option.none_or] at hnext
          rw [hnanos] at hcome
          exact absurd hcome (Nat.not_le.2 (lt_of_firstTick? positive hnext))
  | _ =>
      rw [hended] at hcontrol
      cases hcontrol

/-- With a move of its own a run comes to a pause only from the end of an attempt. -/
theorem Stage.before_pause
    (stage : Stage cancels overflows limit ctx below t n xs k run)
    (entry : e.runs[r]? = some run)
    (decorated : e.jobs[run.job]? = some job)
    (layer : job.layers[below.length]? = some (.retry signal limit interval last))
    (present : e.station r below.length ≠ .away)
    (move : e' ∈ e.moves (.run r))
    {f : JobFailure}
    (pausing : e'.station r below.length = .pausing f) :
    ∃ x, run.station below.length = .handing x := by
  have hnot : ∀ {s : Station}, e'.station r below.length = s → s ≠ .pausing f → False :=
    fun hs hne => hne (hs.symm.trans pausing)
  have hstation := station_of_entry entry below.length
  cases hstands : run.station below.length with
  | handing x => exact ⟨x, rfl⟩
  | away => exact absurd (hstation.trans hstands) present
  | arriving =>
      obtain ⟨e₁, hmoves, hnext⟩ := moves_of_station_arriving entry decorated layer hstands
      rw [hmoves] at move
      obtain rfl := List.mem_singleton.1 move
      exact (hnot hnext (by simp)).elim
  | pausing g =>
      rcases (stage.moves_paused entry hstands).1 e' move with h | h
      · exact (hnot h (by simp)).elim
      · exact (hnot h (by simp)).elim
  | trying =>
      obtain ⟨above, frame, hstack, hinside⟩ := stage.of_trying hstands
      obtain ⟨run', job', signs, hwalked⟩ := walked_of_mem_runMoves entry decorated move
      have hstation' := station_of_entry (hwalked.entry entry) below.length
      rcases hwalked.walk.tries hstack hinside with
        ⟨above', hstack', hinside'⟩ | ⟨hstack', x, hx⟩
      · exact (hnot (hstation'.trans (Run.station_of_inside hstack' hinside')) (by simp)).elim
      · exact (hnot ((hstation'.trans (Run.station_of_top hstack' rfl)).trans hx) (by simp)).elim

end Stages

/-- A visit heeds a token: that of the context, or one that the run follows. -/
def Heeds
    (ctx : Context)
    (r : RunId)
    (d : Nat)
    (l : List (Executor × Executor))
    (t : TokenId) :
    Prop :=
  t = ctx.token ∨ ∃ step ∈ l, step.2.followed? r d = some t

section Visits

variable {ctx : Context} {signal : SignalId} {limit : Int} {interval : Span} {t : TokenId}
  {l : List (Executor × Executor)} {m : Executor}

/-- A run follows one token on its way, so it hears of the cancellation when it pauses. -/
theorem Arrival.calledOff
    (arrival : e.Arrival r run job ctx signal limit interval)
    {before after : List (Executor × Executor)}
    (path : Path (Visiting r run.stack.length) e (before ++ after) e')
    (onto : Path (Visiting r run.stack.length) e before m)
    (heeded : Heeds ctx r run.stack.length (before ++ after) t)
    (cancelled : m.isCancelled t = true)
    {f : JobFailure}
    (pausing : m.station r run.stack.length = .pausing f) :
    m.calledOff r run.stack.length ctx = true := by
  rcases heeded with rfl | ⟨step, hstep, hfollowed⟩
  · rw [calledOff, cancelled, Bool.true_or]
  obtain ⟨_, run₁, _, hstands₁⟩ := arrival.stands_anyhow onto
  obtain ⟨t', _, _, hstands⟩ := arrival.stands_anyhow path
  obtain ⟨fs, shutdown, due, hstack, -⟩ :=
    hstands₁.stage.of_pausing ((station_of_entry hstands₁.entry _).symm.trans pausing)
  have hown : m.followed? r run.stack.length = some shutdown :=
    followed?_of_top hstands₁.entry hstack
  obtain rfl : t = shutdown := by
    rcases onto.reached with rfl | ⟨step', hstep', rfl⟩
    · rw [arrival.station] at pausing
      cases pausing
    · have ht := hstands.tokens step' (List.mem_append_left _ hstep') shutdown hown
      exact Option.some.inj ((hstands.tokens step hstep t hfollowed).symm.trans ht)
  rw [Executor.calledOff, hown, Option.any_some, cancelled, Bool.or_true]

/-- **The tick has come only where an attempt has overrun**, once the visit is called off, if the
clock goes on only while the run cannot move. -/
theorem Arrival.tick_of_patient
    (arrival : e.Arrival r run job ctx signal limit interval)
    {l₁ : List (Executor × Executor)}
    (path₁ : Path (Visiting r run.stack.length) e l₁ m)
    (path₂ : Path (Visiting r run.stack.length) m l e')
    (called : ∀ step ∈ l, ∀ f, step.1.station r run.stack.length = .pausing f →
      step.1.calledOff r run.stack.length ctx = true)
    (positive : 0 < interval.nanos)
    (patient : ∀ step ∈ l, step.2.nanos = step.1.nanos ∨ step.1.moves (.run r) = [])
    (tick : e'.TickDue r run.stack.length) :
    m.TickDue r run.stack.length ∨ ∃ step ∈ l, step.1.Overran r run.stack.length := by
  induction path₂ with
  | start => exact Or.inl tick
  | @next l b b' path last ih =>
      have hmem : (b, b') ∈ l ++ [(b, b')] := List.mem_concat_self
      have hearlier := ih (fun step hs => called step (List.mem_append_left _ hs))
        fun step hs => patient step (List.mem_append_left _ hs)
      obtain ⟨_, run₁, job₁, hstands⟩ := arrival.stands_anyhow (path₁.append path)
      obtain ⟨signal', last', hlayer⟩ := hstands.layer
      have hstation := station_of_entry hstands.entry run.stack.length
      obtain ⟨⟨f, hpausing⟩, due, hdue, hcome⟩ := tick
      rcases last.1.own hstands.entry with hstill | hmove
      · -- The run has stood still, so the clock has not gone on: the run could have moved.
        have hpaused : b.station r run.stack.length = .pausing f := by
          rw [hstation, ← station_of_entry hstill, hpausing]
        have hclock : b'.nanos = b.nanos := by
          refine (patient _ hmem).resolve_right fun hnone => ?_
          obtain ⟨e₁, hmoves, -⟩ := hstands.stage.moves_calledOff hstands.entry
            (hstation.symm.trans hpaused) (called _ hmem f hpaused)
          rw [hnone] at hmoves
          cases hmoves
        have hsame : b.due? r run.stack.length = b'.due? r run.stack.length := by
          rw [due?_of_entry hstands.entry, due?_of_entry hstill]
        refine (hearlier ⟨⟨f, hpaused⟩, due, hsame.trans hdue, hclock ▸ hcome⟩).imp_right ?_
        rintro ⟨step, hs, hover⟩
        exact ⟨step, List.mem_append_left _ hs, hover⟩
      · obtain ⟨x, hhanding⟩ := hstands.stage.before_pause hstands.entry hstands.decorated hlayer
          last.2 hmove hpausing
        exact Or.inr ⟨_, hmem, hstands.stage.overran hstands.entry hstands.decorated hlayer positive
          hhanding hmove ⟨⟨f, hpausing⟩, due, hdue, hcome⟩⟩

/-- **No attempt begins but the first one where no tick has come.** -/
theorem Arrival.attempts_le
    (arrival : e.Arrival r run job ctx signal limit interval)
    {l₁ : List (Executor × Executor)}
    (path₁ : Path (Visiting r run.stack.length) e l₁ m)
    (path₂ : Path (Visiting r run.stack.length) m l e')
    (early : ∀ step ∈ l, ¬step.1.TickDue r run.stack.length) :
    attempts r run.stack.length (l₁ ++ l) ≤ max 1 (attempts r run.stack.length l₁) := by
  induction path₂ with
  | start =>
      rw [List.append_nil]
      exact le_max_right _ _
  | @next l b b' path last ih =>
      have hearlier := ih fun step hs => early step (List.mem_append_left _ hs)
      obtain ⟨_, run₁, job₁, hstands⟩ := arrival.stands_anyhow (path₁.append path)
      obtain ⟨signal', last', hlayer⟩ := hstands.layer
      rw [← List.append_assoc, attempts_append]
      cases hbegan : begins r run.stack.length (b, b') with
      | false => simpa [attempts, hbegan] using hearlier
      | true =>
          have harriving := (hstands.stage.begins hstands.entry hstands.decorated hlayer last
            hbegan).resolve_right (early _ List.mem_concat_self)
          have hnone : attempts r run.stack.length (l₁ ++ l) = 0 :=
            hstands.stage.of_arriving ((station_of_entry hstands.entry _).symm.trans harriving)
          have hone : attempts r run.stack.length [(b, b')] = 1 := by simp [attempts, hbegan]
          omega

end Visits

/-- What is seen of a visit to a layer that repeats after a token that it heeds has been
cancelled, and what can be seen of it next. -/
structure Ends
    (interval : Span)
    (r : RunId)
    (j : JobId)
    (key : String)
    (d : Nat)
    (l₁ : List (Executor × Executor))
    (m : Executor)
    (l₂ : List (Executor × Executor))
    (e : Executor) :
    Prop where
  /-- An attempt that begins is the first one, or its tick had come. -/
  begins : ∀ step ∈ l₂, begins r d step = true →
    step.1.station r d = .arriving ∨ step.1.TickDue r d
  /-- Where no tick comes while the run pauses, no attempt begins but the first one, and no
  repetition is counted. -/
  prompt : (∀ step ∈ l₂, ¬step.1.TickDue r d) →
    attempts r d (l₁ ++ l₂) ≤ max 1 (attempts r d l₁) ∧ retriesCounted r d key l₂ = 0
  /-- If the clock goes on only while the run cannot move, no tick comes while the run pauses,
  unless it had come before the cancellation, or an attempt had not ended when it came. -/
  patient : 0 < interval.nanos →
    (∀ step ∈ l₂, step.2.nanos = step.1.nanos ∨ step.1.moves (.run r) = []) →
    ∀ step ∈ l₂, step.1.TickDue r d → m.TickDue r d ∨ ∃ step' ∈ l₂, step'.1.Overran r d
  /-- A run that has come away has done so with the result of the last attempt, which has ended;
  or the clock does not get an interval further after the first attempt. -/
  departed : ∀ x, e.departed? r d = some x →
    ((results r d (l₁ ++ l₂)).length = attempts r d (l₁ ++ l₂) ∧
        (results r d (l₁ ++ l₂)).getLast? = some x) ∨
      (attempts r d (l₁ ++ l₂) = 1 ∧ x = .burst clockOverflow ∧
        ∃ step ∈ l₁ ++ l₂, step.1.RunsOut r d interval)
  /-- The layer keeps the outcome of a run that has come away with one. -/
  records : ∀ o, e.departed? r d = some (.outcome o) → e.keptOutcome j d = some o
  /-- A run that is away has come away with a result. -/
  away : e.station r d = .away → (e.departed? r d).isSome = true
  /-- A run that arrives can do nothing but begin the first attempt. -/
  starts : e.station r d = .arriving →
    ∃ e', e.moves (.run r) = [e'] ∧ e'.station r d = .trying
  /-- When an attempt has ended, the run can do nothing but come away or pause. -/
  handsOver : ∀ x, e.station r d = .handing x →
    ∃ e', e.moves (.run r) = [e'] ∧
      (e'.station r d = .away ∨ ∃ f, e'.station r d = .pausing f)
  /-- A run that pauses does so after the failure of the last attempt, and can come away. -/
  returns : ∀ f, e.station r d = .pausing f →
    (results r d (l₁ ++ l₂)).getLast? = some (.outcome (.err f)) ∧
      ∃ e' ∈ e.moves (.run r), e'.station r d = .away
  /-- A run that pauses can do nothing else, unless its tick has come: then it can try again. -/
  races : ∀ f, e.station r d = .pausing f →
    (∀ e' ∈ e.moves (.run r), e'.station r d = .away ∨ e'.station r d = .trying) ∧
      ((∃ e' ∈ e.moves (.run r), e'.station r d = .trying) ↔ e.TickDue r d)

/-- **A cancellation ends the repetition, unless a tick has come.**  A run comes to a layer that
repeats, whatever befell the executor before and whatever befalls it on the way.  At some moment
of the visit a token that the layer heeds is cancelled.  From then on no attempt begins but the
first one and those of which the tick has come while the run paused.  The run can come away
whenever it pauses, with the result of the last attempt, which the layer keeps, and without a
tick it can do nothing else. -/
theorem ends_when_cancelled
    {e m e' : Executor}
    {r : RunId}
    {run : Run}
    {job : Job}
    {ctx : Context}
    {signal : SignalId}
    {limit : Int}
    {interval : Span}
    {l₁ l₂ : List (Executor × Executor)}
    {t : TokenId}
    (arrival : e.Arrival r run job ctx signal limit interval)
    (path₁ : Path (Visiting r run.stack.length) e l₁ m)
    (path₂ : Path (Visiting r run.stack.length) m l₂ e')
    (heeded : Heeds ctx r run.stack.length (l₁ ++ l₂) t)
    (cancelled : m.isCancelled t = true) :
    Ends interval r run.job job.task.key run.stack.length l₁ m l₂ e' := by
  have hpath := path₁.append path₂
  obtain ⟨_, run₁, _, hstands₁⟩ := arrival.stands_anyhow path₁
  obtain ⟨_, run', job', hstands⟩ :=
    arrival.stands hpath True (∃ step ∈ l₁ ++ l₂, step.1.RunsOut r run.stack.length interval)
      (fun _ _ _ => trivial) fun step hstep h => ⟨step, hstep, h⟩
  have hstation := station_of_entry hstands.entry run.stack.length
  have hdeparted := departed?_of_entry hstands.entry run.stack.length
  obtain ⟨signal', last, hlayer⟩ := hstands.layer
  have hcalled : ∀ step ∈ l₂, ∀ f, step.1.station r run.stack.length = .pausing f →
      step.1.calledOff r run.stack.length ctx = true := by
    intro step hstep f hpausing
    obtain ⟨before, after, rfl, hbefore, -, -⟩ := path₂.of_mem hstep
    rw [List.append_assoc, ← List.append_assoc] at hpath heeded
    exact arrival.calledOff hpath (path₁.append hbefore) heeded (hbefore.cancelled cancelled)
      hpausing
  refine
    { begins := ?_
      prompt := ?_
      patient := ?_
      departed := fun x departed => hstands.stage.departed_last (hdeparted.symm.trans departed)
      records := fun o departed => hstands.records arrival hpath departed
      away := fun gone => hdeparted ▸ hstands.stage.away (hstation.symm.trans gone)
      starts := fun arriving => moves_of_station_arriving hstands.entry hstands.decorated hlayer
        (hstation.symm.trans arriving)
      handsOver := fun x handing => hstands.stage.moves_handed hstands.entry hstands.decorated
        hlayer (hstation.symm.trans handing)
      returns := ?_
      races := fun f pausing => hstands.stage.moves_paused hstands.entry
        (hstation.symm.trans pausing) }
  · intro step hstep hbegan
    obtain ⟨before, _, -, hbefore, hvisiting, -⟩ := path₂.of_mem hstep
    obtain ⟨_, _, _, hthere⟩ := arrival.stands_anyhow (path₁.append hbefore)
    obtain ⟨_, _, hlayer'⟩ := hthere.layer
    exact hthere.stage.begins hthere.entry hthere.decorated hlayer' hvisiting hbegan
  · intro early
    have hattempts := arrival.attempts_le path₁ path₂ early
    have hcounted := hstands.counted
    rw [retriesCounted_append, hstands₁.counted] at hcounted
    exact ⟨hattempts, by omega⟩
  · intro positive patient step hstep tick
    obtain ⟨before, after, rfl, hbefore, -, -⟩ := path₂.of_mem hstep
    have hsub : ∀ s ∈ before, s ∈ before ++ [step] ++ after :=
      fun _ hs => List.mem_append_left _ (List.mem_append_left _ hs)
    refine (arrival.tick_of_patient path₁ hbefore (fun s hs => hcalled s (hsub s hs)) positive
      (fun s hs => patient s (hsub s hs)) tick).imp_right ?_
    rintro ⟨s, hs, hover⟩
    exact ⟨s, hsub s hs, hover⟩
  · intro f pausing
    have hpaused := hstation.symm.trans pausing
    obtain ⟨fs, _, _, -, -, -, -, -, hresults, -⟩ := hstands.stage.of_pausing hpaused
    refine ⟨?_, ?_⟩
    · rw [hresults]
      exact List.getLast?_concat
    · refine hstands.stage.moves_calledOff hstands.entry hpaused ?_
      have hwhole : Path (Visiting r run.stack.length) e (l₁ ++ l₂ ++ []) e' := by
        rwa [List.append_nil]
      exact arrival.calledOff hwhole hpath (by rwa [List.append_nil])
        (path₂.cancelled cancelled) pausing

/-- The job is repeated without a limit, and its second attempt takes longer than the interval. -/
def stubborn : Executor :=
  onBench (-1) shortestRetry "stubborn"
    [{ ending := .fail "at once" }, { sleep := some 150, ending := .fail "late" }]

/-- The first attempt fails, and while the second one is in progress the context is cancelled. -/
def underWay : List (Executor × Executor) :=
  let go := Incident.move (.run 0) 0
  undergone (List.replicate 5 go ++ [.clock 100, go, go, .clock 210, .cancel 1]) stubborn

/-- The executor when the context has been cancelled. -/
def calledBack : Executor :=
  terminus stubborn underWay

/-- The second attempt fails after its tick, and the run makes one of the moves it has then. -/
def thereafter (choice : Nat) : List (Executor × Executor) :=
  let go := Incident.move (.run 0) 0
  undergone [.clock 250, go, go, go, go, .move (.run 0) choice] calledBack

theorem path_underWay : Path (Visiting 0 0) stubborn underWay calledBack :=
  path_visiting _ _ (by simp) (by decide +kernel)

theorem ends_when_cancelled_underWay :
    ∃ job e, stubborn.Arrival 0 arriving job ⟨1, none⟩ 0 (-1) shortestRetry ∧
      Path (Visiting 0 0) stubborn underWay calledBack ∧
      Path (Visiting 0 0) calledBack (thereafter 1) e ∧
      Heeds ⟨1, none⟩ 0 0 (underWay ++ thereafter 1) 1 ∧ calledBack.isCancelled 1 = true ∧
      e.departed? 0 0 = some (.outcome (.err ⟨"late", .failed⟩)) ∧
      Ends shortestRetry 0 0 "stubborn" 0 underWay calledBack (thereafter 1) e := by
  have harrival := arrival_onBench (-1) shortestRetry "stubborn"
    [{ ending := .fail "at once" }, { sleep := some 150, ending := .fail "late" }]
  have hpath : Path (Visiting 0 0) calledBack (thereafter 1)
      (terminus calledBack (thereafter 1)) :=
    path_visiting _ _ (by simp) (by decide +kernel)
  have hheeded : Heeds ⟨1, none⟩ 0 0 (underWay ++ thereafter 1) 1 := Or.inl rfl
  have hcancelled : calledBack.isCancelled 1 = true := by decide +kernel
  exact ⟨_, _, harrival, path_underWay, hpath, hheeded, hcancelled, by decide +kernel,
    ends_when_cancelled harrival path_underWay hpath hheeded hcancelled⟩

/-- **A cancelled run can go on.**  The context is cancelled while an attempt is in progress; the
tick has come when it fails, and the run makes and counts another attempt. -/
theorem goes_on_cancelled :
    ∃ job e, stubborn.Arrival 0 arriving job ⟨1, none⟩ 0 (-1) shortestRetry ∧
      Path (Visiting 0 0) stubborn underWay calledBack ∧
      Path (Visiting 0 0) calledBack (thereafter 0) e ∧
      Heeds ⟨1, none⟩ 0 0 (underWay ++ thereafter 0) 1 ∧ calledBack.isCancelled 1 = true ∧
      attempts 0 0 underWay = 2 ∧ attempts 0 0 (thereafter 0) = 1 ∧
      retriesCounted 0 0 "stubborn" (thereafter 0) = 1 := by
  have hpath : Path (Visiting 0 0) calledBack (thereafter 0)
      (terminus calledBack (thereafter 0)) :=
    path_visiting _ _ (by simp) (by decide +kernel)
  exact ⟨_, _, arrival_onBench _ _ _ _, path_underWay, hpath, Or.inl rfl, by decide +kernel,
    by decide +kernel, by decide +kernel, by decide +kernel⟩

end Executor
end Timetable
