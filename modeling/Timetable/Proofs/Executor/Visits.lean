import Timetable.Proofs.Executor.Passages
import Timetable.Proofs.Executor.Readings

/-!
# Visits to a layer that repeats

A run that has come to a layer stands at one of a few stations until it is away again: it
arrives, it tries what is inside, it hands over how that has ended, it pauses.  The layer acts
at all stations but one; while the run tries, whatever happens further inside leaves the layer
and its frame alone.

What is seen of a visit is read off the steps of a path: when attempts begin, how they end, and
what the layer itself counts and reports.

Main results:

* what befalls the executor leaves a run alone, or is one of its moves (Befalls.own);
* while a run tries, the frame of the layer stays (Walk.keeps_frame), and so does the layer
  (Walk.layer_below);
* the moves at each other station (moves_arriving, moves_handing, moves_bursting,
  moves_pausing).
-/

namespace Timetable

/-- How an attempt ends: with an outcome, or by unwinding. -/
inductive Result where
  | outcome (o : Outcome)
  | burst (p : Payload)
  deriving DecidableEq, Repr

/-- The outcome of a result. -/
def Result.outcome? : Result → Option Outcome
  | outcome o => some o
  | burst _ => none

/-- A result is an outcome that is no success. -/
def Result.failed : Result → Bool
  | outcome (.err _) => true
  | _ => false

/-- Where a run stands on a visit to a layer. -/
inductive Station where
  /-- It has come to the layer. -/
  | arriving
  /-- An attempt is in progress. -/
  | trying
  /-- An attempt has ended. -/
  | handing (result : Result)
  /-- It waits for the next attempt. -/
  | pausing (failure : JobFailure)
  /-- It is not on a visit. -/
  | away
  deriving DecidableEq, Repr

/-- The result that a run hands over. -/
def Station.result? : Station → Option Result
  | handing x => some x
  | _ => none

/-- The station of a run whose innermost frame is that of the layer. -/
def Control.station : Control → Station
  | leaving o => .handing (.outcome o)
  | unwinding p => .handing (.burst p)
  | pausing f => .pausing f
  | _ => .trying

/-- The station of a run on a visit to the layer at a depth. -/
def Run.station
    (run : Run)
    (d : Nat) :
    Station :=
  if d + 1 < run.stack.length then .trying
  else if run.stack.length = d + 1 then run.control.station
  else if run.arrivesAt d then .arriving
  else .away

/-- The result with which a run has come away from the layer at a depth. -/
def Run.departed?
    (run : Run)
    (d : Nat) :
    Option Result :=
  if run.stack.length = d then run.control.station.result? else none

/-- The tick for which a frame waits. -/
def Frame.due? : Frame → Option Nat
  | retry _ _ _ due => due
  | _ => none

/-- The tick for which a run waits in the layer at a depth, once an attempt there has failed. -/
def Run.due?
    (run : Run)
    (d : Nat) :
    Option Nat :=
  run.stack.reverse[d]?.bind Frame.due?

namespace Run

variable {run : Run} {d : Nat} {f : Frame} {above below : List Frame}

theorem station_of_above
    (stack : run.stack = above ++ f :: below)
    (depth : below.length = d)
    (inside : above ≠ []) :
    run.station d = .trying := by
  have hlength := List.length_pos_iff.2 inside
  refine if_pos ?_
  rw [stack, List.length_append, List.length_cons, depth]
  omega

theorem station_of_top
    (stack : run.stack = f :: below)
    (depth : below.length = d) :
    run.station d = run.control.station := by
  simp [station, stack, depth]

/-- A run whose frame at the layer is covered, or that is busy right above it, tries. -/
theorem station_of_inside
    (stack : run.stack = above ++ f :: below)
    (inside : above ≠ [] ∨ run.control.station = .trying) :
    run.station below.length = .trying := by
  by_cases habove : above = []
  · subst habove
    rw [station_of_top stack rfl]
    exact inside.resolve_left (fun h => h rfl)
  · exact station_of_above stack rfl habove

theorem station_of_out
    (stack : run.stack = below)
    (depth : below.length = d) :
    run.station d = if run.arrivesAt d then .arriving else .away := by
  simp [station, stack, depth]

/-- The frame at a depth. -/
theorem frame_of_stack
    (above : List Frame)
    (stack : run.stack = above ++ f :: below)
    (depth : below.length = d) :
    run.stack.reverse[d]? = some f := by
  have hlength : below.reverse.length = d := by rw [List.length_reverse, depth]
  rw [stack, List.reverse_append, List.reverse_cons, List.getElem?_append_left (by simp [depth]),
    ← hlength, List.getElem?_concat_length]

/-- A run outside the layer is arriving or away. -/
theorem station_of_out_cases
    (stack : run.stack = below) :
    run.station below.length = .arriving ∨ run.station below.length = .away := by
  rw [station_of_out stack rfl]
  split
  · exact Or.inl rfl
  · exact Or.inr rfl

/-- A run that arrives enters from outside. -/
theorem of_station_arriving
    (arriving : run.station d = .arriving) :
    run.stack.length = d ∧ ∃ ctx, run.control = .entering ctx := by
  unfold station at arriving
  split at arriving
  · cases arriving
  · split at arriving
    · cases hcontrol : run.control <;> rw [hcontrol] at arriving <;> cases arriving
    · split at arriving
      · rename_i harrives
        unfold arrivesAt at harrives
        split at harrives
        · rename_i ctx hcontrol
          exact ⟨beq_iff_eq.1 harrives, ctx, hcontrol⟩
        · cases harrives
      · cases arriving

/-- A run outside the layer that does not enter has left it. -/
theorem station_of_left
    (stack : run.stack = below)
    (notEntering : ∀ ctx, run.control ≠ .entering ctx) :
    run.station below.length = .away := by
  have harrives : run.arrivesAt below.length = false := by
    unfold arrivesAt
    split
    · rename_i ctx hctx
      exact absurd hctx (notEntering ctx)
    · rfl
  rw [station_of_out stack rfl, harrives]
  rfl

/-- A run that has come away is away. -/
theorem station_of_departed
    {x : Result}
    (departed : run.departed? d = some x) :
    run.station d = .away := by
  unfold departed? at departed
  split at departed
  · rename_i hdepth
    subst hdepth
    refine station_of_left rfl ?_
    intro ctx hcontrol
    rw [hcontrol] at departed
    cases departed
  · cases departed

/-- The token that a run follows is that of the frame of the layer. -/
theorem shutdown?_of_stack
    (above : List Frame)
    (stack : run.stack = above ++ f :: below)
    (depth : below.length = d) :
    run.shutdown? d = f.shutdown? := by
  rw [shutdown?, frame_of_stack above stack depth, Option.bind_some]

/-- The tick for which a run waits is that of the frame of the layer. -/
theorem due?_of_top
    (stack : run.stack = f :: below) :
    run.due? below.length = f.due? := by
  rw [due?, frame_of_stack [] stack rfl, Option.bind_some]

/-- A run that is still inside the layer has not come away from it. -/
theorem departed?_of_inside
    (above : List Frame)
    (stack : run.stack = above ++ f :: below) :
    run.departed? below.length = none := by
  refine if_neg ?_
  rw [stack, List.length_append, List.length_cons]
  omega

/-- A run outside the layer follows no token of it. -/
theorem shutdown?_of_out
    (stack : run.stack = below)
    (depth : below.length = d) :
    run.shutdown? d = none := by
  rw [shutdown?, stack, List.getElem?_eq_none (by simp [depth])]
  rfl

end Run

namespace Job

/-- What a frame gives up concerns its own layer only. -/
theorem layers_released_of_ne
    (job : Job)
    (f : Frame)
    {k d : Nat}
    (h : d ≠ k) :
    (job.released k f).layers[d]? = job.layers[d]? := by
  cases f with
  | skip => exact List.getElem?_set_ne (Ne.symm h)
  | delay =>
      unfold released
      dsimp only
      split
      · exact List.getElem?_set_ne (Ne.symm h)
      · rfl
  | recover | track | retry | trace | tag => rfl

theorem layers_setLast_of_ne
    (job : Job)
    (o : Outcome)
    {k d : Nat}
    (h : d ≠ k) :
    (job.setLast k o).layers[d]? = job.layers[d]? := by
  rw [setLast, List.getElem?_modify]
  simp [Ne.symm h]

end Job

namespace Executor

variable {e e' : Executor} {r : RunId} {run run' : Run} {job job' : Job} {signs : List Sign}

section Trying

variable {f : Frame} {above below : List Frame}

/-- **While a run tries, the frame of the layer stays**, and no pause begins at the layer. -/
theorem Walk.keeps_frame
    (h : e.Walk r run job run' job' signs)
    (stack : run.stack = above ++ f :: below)
    (inside : above ≠ [] ∨ run.control.station = .trying) :
    ∃ above', run'.stack = above' ++ f :: below ∧
      (above' ≠ [] ∨ ∀ g, run'.control ≠ .pausing g) := by
  have hpop : ∀ {g frames c}, run.control = c → c.station ≠ .trying → run.stack = g :: frames →
      ∃ above', frames = above' ++ f :: below := by
    rintro g frames c rfl hc hframes
    cases above with
    | nil => exact absurd (inside.resolve_left (fun h => h rfl)) hc
    | cons g' above' =>
        rw [hframes] at stack
        exact ⟨above', (List.cons.inj stack).2⟩
  cases h with
  | enter | take | letIn => exact ⟨_ :: above, congrArg (List.cons _) stack, Or.inl (by simp)⟩
  | call =>
      refine ⟨above, stack, Or.inr fun g => ?_⟩
      cases hsleep : (job.task.script job.task.calls e.calls.length).sleep <;>
        simp [callControl, hsleep]
  | skip | miss | join | wake | proceed | answer | burst => exact ⟨above, stack, Or.inr (by simp)⟩
  | bar control stack' | rescue control stack' | overflow control stack' | settle control stack'
  | stop control stack' | pass control stack' | unwind control stack' =>
      obtain ⟨above', habove⟩ := hpop control (by simp [Control.station]) stack'
      exact ⟨above', habove, Or.inr (by simp)⟩
  | pause control stack' | again control stack' =>
      obtain ⟨above', habove⟩ := hpop control (by simp [Control.station]) stack'
      exact ⟨_ :: above', congrArg (List.cons _) habove, Or.inl (by simp)⟩
  | finish control stack' | escape control stack' => simp [stack] at stack'

/-- A run that tries goes on doing so, or hands over. -/
theorem Walk.tries
    (h : e.Walk r run job run' job' signs)
    (stack : run.stack = above ++ f :: below)
    (inside : above ≠ [] ∨ run.control.station = .trying) :
    (∃ above', run'.stack = above' ++ f :: below ∧
        (above' ≠ [] ∨ run'.control.station = .trying)) ∨
      run'.stack = f :: below ∧ ∃ x, run'.control.station = .handing x := by
  obtain ⟨above', hstack, hinside⟩ := h.keeps_frame stack inside
  by_cases hon : above' ≠ [] ∨ run'.control.station = .trying
  · exact Or.inl ⟨above', hstack, hon⟩
  · obtain ⟨habove, htop⟩ := not_or.1 hon
    obtain rfl := not_not.1 habove
    have hnot := hinside.resolve_left habove
    refine Or.inr ⟨hstack, ?_⟩
    cases hcontrol : run'.control with
    | leaving o => exact ⟨_, rfl⟩
    | unwinding p => exact ⟨_, rfl⟩
    | pausing g => exact absurd hcontrol (hnot g)
    | _ => exact absurd (by rw [hcontrol]; rfl) htop

/-- **While a run tries, the layer stays as it is.** -/
theorem Walk.layer_below
    (h : e.Walk r run job run' job' signs)
    (stack : run.stack = above ++ f :: below)
    (inside : above ≠ [] ∨ run.control.station = .trying) :
    job'.layers[below.length]? = job.layers[below.length]? := by
  have hhere : below.length ≠ run.stack.length := by
    rw [stack, List.length_append, List.length_cons]
    omega
  have hpop : ∀ {g frames c}, run.control = c → c.station ≠ .trying → run.stack = g :: frames →
      below.length ≠ frames.length := by
    rintro g frames c rfl hc hframes
    have habove := List.length_pos_iff.2 (inside.resolve_right hc)
    rw [stack] at hframes
    have hlength := congrArg List.length hframes
    rw [List.length_append, List.length_cons, List.length_cons] at hlength
    omega
  cases h with
  | enter | join | take => exact List.getElem?_set_ne (Ne.symm hhere)
  | skip | miss | letIn | call | wake | proceed | answer | burst | overflow | pause | again | finish
  | escape => rfl
  | bar control stack' | rescue control stack' | settle control stack' | stop control stack' =>
      exact job.layers_setLast_of_ne _ (hpop control (by simp [Control.station]) stack')
  | pass control stack' | unwind control stack' =>
      exact job.layers_released_of_ne _ (hpop control (by simp [Control.station]) stack')

end Trying

theorem Walked.entry
    (walked : e.Walked e' r run job run' job' signs)
    (entry : e.runs[r]? = some run) :
    e'.runs[r]? = some run' := by
  rw [walked.runs, List.getElem?_set_self (List.getElem?_eq_some_iff.1 entry).1]

/-- **What befalls the executor leaves a run alone, or is one of its moves.** -/
theorem Befalls.own
    (h : e.Befalls e')
    (entry : e.runs[r]? = some run) :
    e'.runs[r]? = some run ∨ e' ∈ e.moves (.run r) := by
  have hquiet : e'.runs = e.runs → e'.runs[r]? = some run ∨ e' ∈ e.moves (.run r) :=
    fun h => Or.inl (h ▸ entry)
  have happend : ∀ more, e'.runs = e.runs ++ more →
      e'.runs[r]? = some run ∨ e' ∈ e.moves (.run r) := by
    intro more h
    rw [h, List.getElem?_append_left (List.getElem?_eq_some_iff.1 entry).1]
    exact Or.inl entry
  cases h with
  | cancel t => exact hquiet rfl
  | act h =>
      cases h with
      | startEngine => exact hquiet rfl
      | change h =>
          cases h with
          | drift h =>
              cases h with
              | move m h =>
                  cases m with
                  | run k =>
                      by_cases hk : k = r
                      · exact Or.inr (hk ▸ h)
                      · obtain ⟨_, _, -, hstep⟩ := runStep_of_mem_runMoves h
                        rw [hstep.runs, List.getElem?_set_ne hk]
                        exact Or.inl entry
                  | timer n =>
                      obtain ⟨t, t', -, hdriven⟩ := driven_of_mem_timerMoves h
                      exact happend _ hdriven.runs
                  | waiter n => exact hquiet (same_of_mem_waiterMoves h).1
              | launch j ctx => exact happend _ rfl
              | exhaust | clock | line | note | wait => exact hquiet rfl
          | close n =>
              rcases e.close_eq n with hEq | ⟨s, hEq⟩
              · exact hquiet (by rw [hEq])
              · exact hquiet (by rw [hEq]; rfl)
          | rearm s => exact hquiet (e.quiet_rearm s).runs
          | giveUp | trigger | stopEngine | addJob | arm => exact hquiet rfl

/-- The station of a run on a visit to the layer at a depth of its job. -/
def station
    (e : Executor)
    (r : RunId)
    (d : Nat) :
    Station :=
  (e.runs[r]?).elim .away (·.station d)

theorem station_of_entry
    (entry : e.runs[r]? = some run)
    (d : Nat) :
    e.station r d = run.station d := by
  rw [station, entry, Option.elim_some]

/-- The result with which a run has come away from the layer at a depth. -/
def departed?
    (e : Executor)
    (r : RunId)
    (d : Nat) :
    Option Result :=
  (e.runs[r]?).bind (·.departed? d)

theorem departed?_of_entry
    (entry : e.runs[r]? = some run)
    (d : Nat) :
    e.departed? r d = run.departed? d := by
  rw [departed?, entry, Option.bind_some]

/-- The token that a run follows in the layer at a depth. -/
def followed?
    (e : Executor)
    (r : RunId)
    (d : Nat) :
    Option TokenId :=
  (e.runs[r]?).bind (·.shutdown? d)

theorem followed?_of_entry
    (entry : e.runs[r]? = some run)
    (d : Nat) :
    e.followed? r d = run.shutdown? d := by
  rw [followed?, entry, Option.bind_some]

/-- The tick for which a run waits in the layer at a depth. -/
def due?
    (e : Executor)
    (r : RunId)
    (d : Nat) :
    Option Nat :=
  (e.runs[r]?).bind (·.due? d)

theorem due?_of_entry
    (entry : e.runs[r]? = some run)
    (d : Nat) :
    e.due? r d = run.due? d := by
  rw [due?, entry, Option.bind_some]

/-- What a run follows and waits for in a layer is in the frame of that layer. -/
theorem followed?_of_top
    {f : Frame}
    {below : List Frame}
    (entry : e.runs[r]? = some run)
    (stack : run.stack = f :: below) :
    e.followed? r below.length = f.shutdown? :=
  (followed?_of_entry entry _).trans (Run.shutdown?_of_stack [] stack rfl)

theorem due?_of_top
    {f : Frame}
    {below : List Frame}
    (entry : e.runs[r]? = some run)
    (stack : run.stack = f :: below) :
    e.due? r below.length = f.due? :=
  (due?_of_entry entry _).trans (Run.due?_of_top stack)

/-- Something befalls the executor while a run is on a visit to a layer. -/
def Visiting
    (r : RunId)
    (d : Nat)
    (e e' : Executor) :
    Prop :=
  e.Befalls e' ∧ e.station r d ≠ .away

/-- Incidents other than drops are a path of a visit, if the run is not away before any of
them. -/
theorem path_visiting
    (is : List Incident)
    (e : Executor)
    (noDrop : ∀ i ∈ is, ∀ k, i ≠ .drop k)
    {d : Nat}
    (present : ((undergone is e).all fun step => step.1.station r d != .away) = true) :
    Path (Visiting r d) e (undergone is e) (terminus e (undergone is e)) := by
  have hpath : Path Befalls e (undergone is e) (terminus e (undergone is e)) :=
    path_undergone is e fun i hi _ _ h => befalls_of_undergo (noDrop i hi) h
  exact hpath.imp fun step hstep hbefalls =>
    ⟨hbefalls, bne_iff_ne.1 (List.all_eq_true.1 present step hstep)⟩

/-- A run comes away from a layer with a step of its own. -/
theorem Path.came_away
    {d : Nat}
    {l : List (Executor × Executor)}
    (path : Path (Visiting r d) e l e')
    (present : e.station r d ≠ .away)
    (gone : e'.station r d = .away) :
    ∃ step ∈ l, step.2 = e' ∧ step.1.runs[r]? ≠ step.2.runs[r]? := by
  cases path with
  | start => exact absurd gone present
  | @next l d d' path last =>
      refine ⟨(d, e'), List.mem_concat_self, rfl, fun hsame => last.2 ?_⟩
      rw [← gone, station, station]
      exact congrArg (Option.elim · _ _) hsame

section Moves

variable {ctx : Context} {below : List Frame} {shutdown : TokenId} {repeated : Nat}
  {due : Option Nat}

theorem moves_arriving
    (entry : e.runs[r]? = some run)
    (decorated : e.jobs[run.job]? = some job)
    (control : run.control = .entering ctx)
    {signal : SignalId}
    {limit : Int}
    {interval : Span}
    {last : Option Outcome}
    (layer : job.layers[run.stack.length]? = some (.retry signal limit interval last)) :
    e.moves (.run r) =
      [e.push r run (.retry (e.signalToken signal) ctx 0 none) (.entering ctx)] := by
  simp [moves, runMoves, entry, control, decorated, layer, enterLayer]

theorem moves_handing
    (entry : e.runs[r]? = some run)
    {o : Outcome}
    (control : run.control = .leaving o)
    (stack : run.stack = .retry shutdown ctx repeated due :: below) :
    e.moves (.run r) = [e.attemptEnded r run below shutdown ctx repeated due o] := by
  simp [moves, runMoves, entry, control, stack, leaveFrame]

theorem moves_bursting
    (entry : e.runs[r]? = some run)
    {p : Payload}
    (control : run.control = .unwinding p)
    (stack : run.stack = .retry shutdown ctx repeated due :: below) :
    e.moves (.run r) = [e.resume r run below (.unwinding p)] := by
  simp [moves, runMoves, entry, control, stack, unwindFrame, release]

theorem moves_pausing
    (entry : e.runs[r]? = some run)
    {f : JobFailure}
    {next : Nat}
    (control : run.control = .pausing f)
    (stack : run.stack = .retry shutdown ctx repeated (some next) :: below) :
    e.moves (.run r) =
      (if next ≤ e.nanos then [e.repeatAttempt r run below shutdown ctx repeated next f] else []) ++
      (if e.isCancelled shutdown then
        [e.stopRepeating r run below repeated f "shutdown"] else []) ++
      (if e.isCancelled ctx.token then
        [e.stopRepeating r run below repeated f "job context"] else []) := by
  simp [moves, runMoves, entry, control, pauseMoves, stack]

theorem mem_moves_pausing_iff
    (e' : Executor)
    (entry : e.runs[r]? = some run)
    {f : JobFailure}
    {next : Nat}
    (control : run.control = .pausing f)
    (stack : run.stack = .retry shutdown ctx repeated (some next) :: below) :
    e' ∈ e.moves (.run r) ↔
      (next ≤ e.nanos ∧ e' = e.repeatAttempt r run below shutdown ctx repeated next f) ∨
        (e.isCancelled shutdown = true ∧
          e' = e.stopRepeating r run below repeated f "shutdown") ∨
        (e.isCancelled ctx.token = true ∧
          e' = e.stopRepeating r run below repeated f "job context") := by
  rw [moves_pausing entry control stack, List.append_assoc, List.mem_append, List.mem_append,
    mem_guarded_iff, mem_guarded_iff, mem_guarded_iff]

end Moves

end Executor
end Timetable
