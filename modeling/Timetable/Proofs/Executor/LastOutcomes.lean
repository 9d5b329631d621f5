import Timetable.Proofs.Executor.Visits

/-!
# Last outcomes

A job shows the outcome that its keeper keeps: the outermost layer that keeps outcomes, or the
task if no layer does.  All other layers show what is inside them.  The keeper keeps the outcome
of each run that comes out of it, and nothing else changes what it keeps, so what a job shows
is the outcome with which the last run has come out of its keeper, whatever occurs.

Main results:

* a move changes what is kept at a depth exactly if the run comes out there with an outcome
  (Walk.remembered);
* so does whatever occurs (Occurs.shown);
* a job shows the outcome with which the last run has come out of its keeper
  (lastOutcome_eq_last).
-/

namespace Timetable

/-- The wrapper makes a layer that keeps outcomes of its own. -/
def Wrapper.keepsOutcome (w : Wrapper) : Bool :=
  w.layer.keepsOutcome

@[simp] theorem Layer.keepsOutcome_wrapper (l : Layer) :
    l.wrapper.keepsOutcome = l.keepsOutcome := by
  cases l <;> rfl

/-- The depth at which the outcome is kept that a job shows: that of the outermost layer that keeps
outcomes, or that of the task. -/
def Chain.keeper (chain : Chain) : Nat :=
  chain.findIdx Wrapper.keepsOutcome

/-- Outcomes are kept at a depth: by the layer there, or by the task inside all layers. -/
structure Chain.KeepsAt
    (chain : Chain)
    (k : Nat) :
    Prop where
  le : k ≤ chain.length
  layer : ∀ w, chain[k]? = some w → w.keepsOutcome = true

theorem Chain.keepsAt_keeper (chain : Chain) : chain.KeepsAt chain.keeper := by
  refine ⟨List.findIdx_le_length, fun w hw => ?_⟩
  obtain ⟨hlt, rfl⟩ := List.getElem?_eq_some_iff.1 hw
  exact List.findIdx_getElem (w := hlt)

/-- The frames of a stack are not more than the wrappers. -/
theorem Chain.Fits.length_le
    {chain : Chain}
    {frames : List Frame}
    (fits : chain.Fits frames) :
    frames.length ≤ chain.length := by
  cases frames with
  | nil => exact Nat.zero_le _
  | cons f frames =>
      obtain ⟨⟨w, hw, -⟩, -⟩ := fits
      exact (List.getElem?_eq_some_iff.1 hw).1

/-- The layer of a frame keeps outcomes exactly if the frame says so. -/
theorem Wrapper.keepsOutcome_of_fits
    {w : Wrapper}
    {f : Frame}
    (fits : w.fits f = true) :
    w.keepsOutcome = f.keepsOutcome := by
  cases w <;> cases f <;> first | rfl | cases fits

namespace Job

/-- The outcome that is kept at a depth. -/
def shown
    (job : Job)
    (k : Nat) :
    Option Outcome :=
  match job.layers[k]? with
  | some l => l.last
  | none => job.task.last

/-- A job shows what its keeper keeps. -/
theorem lastOutcome_eq_shown (job : Job) : job.lastOutcome = job.shown job.chain.keeper := by
  obtain ⟨layers, task⟩ := job
  unfold lastOutcome shown
  induction layers with
  | nil => rfl
  | cons l layers ih =>
      cases hl : l.keepsOutcome with
      | true => simp [chain, Chain.keeper, List.findIdx_cons, hl]
      | false =>
          simp only [List.find?_cons, hl, chain, Chain.keeper, List.map_cons, List.findIdx_cons,
            Layer.keepsOutcome_wrapper, cond_false, List.getElem?_cons_succ]
          exact ih

/-- A job is as it is made: nothing is kept yet. -/
theorem shown_ofTask
    (c : Chain)
    {t : Task}
    (fresh : t.last = none)
    (k : Nat) :
    (ofTask c t).shown k = none := by
  unfold shown ofTask
  dsimp only
  cases h : c.layers[k]? with
  | none => exact fresh
  | some l =>
      obtain ⟨w, -, rfl⟩ := List.mem_map.1 (List.mem_of_getElem? h)
      cases w <;> rfl

/-- What is kept depends on what the layers and the task keep. -/
theorem shown_congr
    {job job' : Job}
    {k : Nat}
    (layers : (job'.layers[k]?).map Layer.last = (job.layers[k]?).map Layer.last)
    (task : job'.task.last = job.task.last) :
    job'.shown k = job.shown k := by
  unfold shown
  cases h : job.layers[k]? with
  | none =>
      rw [h, Option.map_none, Option.map_eq_none_iff] at layers
      rw [layers]
      exact task
  | some l =>
      rw [h, Option.map_some, Option.map_eq_some_iff] at layers
      obtain ⟨l', hl', hlast⟩ := layers
      rw [hl']
      exact hlast

/-- A layer that is set to one that keeps the same leaves what is kept. -/
theorem shown_setLayer
    {job : Job}
    {d : Nat}
    {l l' : Layer}
    (layer : job.layers[d]? = some l)
    (same : l'.last = l.last)
    (k : Nat) :
    (job.setLayer d l').shown k = job.shown k := by
  refine shown_congr ?_ rfl
  by_cases hk : k = d
  · subst hk
    rw [setLayer, List.getElem?_set_self (List.getElem?_eq_some_iff.1 layer).1, layer]
    exact congrArg some same
  · rw [setLayer, List.getElem?_set_ne (Ne.symm hk)]

/-- A layer that keeps outcomes keeps the one that it is given, and the others what they keep. -/
theorem shown_setLast
    {job : Job}
    {d : Nat}
    {w : Wrapper}
    (wrapped : job.chain[d]? = some w)
    (keeps : w.keepsOutcome = true)
    (o : Outcome)
    (k : Nat) :
    (job.setLast d o).shown k = if d = k then some o else job.shown k := by
  obtain ⟨l, hl, rfl⟩ := exists_layer wrapped
  split
  · rename_i hk
    subst hk
    unfold shown setLast
    simp only [List.getElem?_modify_eq, hl, Option.map_eq_map, Option.map_some]
    cases l <;> first | rfl | cases keeps
  · rename_i hk
    refine shown_congr ?_ rfl
    rw [layers_setLast_of_ne job o (Ne.symm hk)]

/-- What a frame gives up is nothing that is kept. -/
theorem shown_released
    {job : Job}
    {d : Nat}
    {f : Frame}
    {w : Wrapper}
    (wrapped : job.chain[d]? = some w)
    (fits : w.fits f = true)
    (k : Nat) :
    (job.released d f).shown k = job.shown k := by
  rcases released_cases wrapped fits with ⟨running, -, hl, h⟩ | ⟨lock, -, hl, h⟩ | ⟨-, -, h⟩
  · rw [h]
    exact shown_setLayer hl (by rfl) k
  · rw [h]
    exact shown_setLayer hl (by rfl) k
  · rw [h]

/-- The outcome of a call is kept by the task, inside all layers. -/
theorem shown_answered
    {job : Job}
    {k : Nat}
    (keeps : job.chain.KeepsAt k)
    (o : Outcome) :
    (job.answered o).shown k = if job.chain.length = k then some o else job.shown k := by
  have hlength := job.length_chain
  unfold shown answered
  rcases keeps.le.eq_or_lt with hk | hk
  · simp [hk, List.getElem?_eq_none hlength.ge]
  · rw [if_neg hk.ne', List.getElem?_eq_getElem (hlength ▸ hk)]

/-- Nor is what a run gives up that is dropped. -/
theorem shown_dropped
    {job : Job}
    {run : Run}
    (fits : job.chain.Fits run.stack)
    (r : RunId)
    (k : Nat) :
    (job.dropped r run).shown k = job.shown k := by
  have hreleased : ∀ {frames : List Frame} {own : Job}, own.chain.Fits frames →
      (own.releasedAll frames).shown k = own.shown k := by
    intro frames
    induction frames with
    | nil => exact fun _ => rfl
    | cons f frames ih =>
        rintro own ⟨⟨w, hw, hf⟩, hframes⟩
        rw [← chain_released hw hf] at hframes
        exact (ih hframes).trans (shown_released hw hf k)
  rw [← chain_dequeued job r run] at fits
  refine (hreleased fits).trans ?_
  unfold dequeued
  split
  · rename_i hl
    exact shown_setLayer hl (by rfl) k
  · rfl

end Job

/-- The run is inside a call of its task. -/
def Run.calls (run : Run) : Bool :=
  match run.control with
  | .asleep _ _ _ _ => true
  | .held _ _ _ => true
  | .ending _ _ => true
  | _ => false

/-- A run comes away only with a result. -/
theorem Run.departed?_of_silent
    {run : Run}
    (silent : run.control.station.result? = none)
    (k : Nat) :
    run.departed? k = none := by
  unfold Run.departed?
  split
  · exact silent
  · rfl

/-- The outcome with which a run comes out at a depth, given the run afterwards. -/
def Run.emerges?
    (run run' : Run)
    (k : Nat) :
    Option Outcome :=
  if run.departed? k = none then (run'.departed? k).bind Result.outcome? else none

/-- A run that is about to hand over an outcome comes out where it has come to. -/
theorem Run.emerges?_of_leaving
    {run : Run}
    {frames : List Frame}
    {o : Outcome}
    {k : Nat}
    (inside : frames.length = k → run.departed? k = none) :
    run.emerges? { run with stack := frames, control := .leaving o } k =
      if frames.length = k then some o else none := by
  by_cases hk : frames.length = k
  · rw [Run.emerges?, if_pos (inside hk), if_pos hk, Run.departed?, if_pos hk]
    rfl
  · have hout : Run.departed? { run with stack := frames, control := .leaving o } k = none :=
      if_neg hk
    rw [Run.emerges?, hout, if_neg hk, Option.bind_none, ite_self]

/-- A run that comes out is about to hand its outcome to what is around that depth. -/
theorem Run.of_emerges?
    {run run' : Run}
    {k : Nat}
    {o : Outcome}
    (emerges : run.emerges? run' k = some o) :
    run'.stack.length = k ∧ run'.control = .leaving o := by
  obtain ⟨-, h⟩ := Option.ite_none_right_eq_some.1 emerges
  obtain ⟨x, hdeparted, hx⟩ := Option.bind_eq_some_iff.1 h
  obtain ⟨hdepth, hresult⟩ := Option.ite_none_right_eq_some.1 hdeparted
  refine ⟨hdepth, ?_⟩
  cases x with
  | burst p => cases hx
  | outcome o' =>
      cases hx
      cases hcontrol : run'.control <;> rw [hcontrol] at hresult <;> cases hresult
      rfl

namespace Executor

variable {e e' : Executor} {r : RunId} {run run' : Run} {job job' : Job} {signs : List Sign}

theorem Opens.last
    {ctx ctx' : Context}
    {l l' : Layer}
    {f : Frame}
    (h : e.Opens r ctx l f l' ctx') :
    l'.last = l.last := by
  cases h <;> rfl

/-- **A move changes what is kept at a depth exactly if the run comes out there with an
outcome**, which is kept then. -/
theorem Walk.remembered
    (h : e.Walk r run job run' job' signs)
    (fits : job.chain.Fits run.stack)
    (innermost : run.calls = true → run.stack.length = job.chain.length)
    {k : Nat}
    (keeps : job.chain.KeepsAt k) :
    job'.shown k = (run.emerges? run' k).or (job.shown k) := by
  have hquiet : (run'.departed? k).bind Result.outcome? = none → job'.shown k = job.shown k →
      job'.shown k = (run.emerges? run' k).or (job.shown k) := by
    intro hnone hsame
    rw [Run.emerges?, hnone, ite_self, Option.none_or, hsame]
  have hbusy : run'.control.station.result?.bind Result.outcome? = none →
      job'.shown k = job.shown k → job'.shown k = (run.emerges? run' k).or (job.shown k) := by
    intro hnone hsame
    refine hquiet ?_ hsame
    unfold Run.departed?
    split
    · exact hnone
    · rfl
  have hcall : ∀ {d : Nat} {l : Layer}, job.layers[d]? = some l → l.keepsOutcome = false →
      d ≠ k := by
    rintro d l hl hplain rfl
    have := keeps.layer _ (Job.chain_getElem? hl)
    rw [Layer.keepsOutcome_wrapper, hplain] at this
    cases this
  have hpop : ∀ {f frames}, run.stack = f :: frames →
      ∃ w, job.chain[frames.length]? = some w ∧ w.fits f = true := by
    intro f frames stack
    rw [stack] at fits
    exact fits.1
  -- The run comes out of a layer that keeps outcomes.
  have hout : ∀ {f : Frame} {frames : List Frame} {o : Outcome}, run.stack = f :: frames →
      f.keepsOutcome = true →
      run' = { run with stack := frames, control := .leaving o } →
      job' = job.setLast frames.length o →
      job'.shown k = (run.emerges? run' k).or (job.shown k) := by
    rintro f frames o hstack hkeeps rfl rfl
    obtain ⟨w, hw, hfits⟩ := hpop hstack
    have hinside : frames.length = k → run.departed? k = none := fun hk =>
      hk ▸ Run.departed?_of_inside [] hstack
    rw [Job.shown_setLast hw ((Wrapper.keepsOutcome_of_fits hfits).trans hkeeps) o k,
      Run.emerges?_of_leaving hinside]
    split <;> rfl
  cases h with
  | enter control layer opens => exact hbusy rfl (Job.shown_setLayer layer opens.last k)
  | skip control layer =>
      refine hquiet ?_ rfl
      rw [Run.departed?, if_neg (hcall layer rfl)]
      rfl
  | join control layer | take control layer =>
      exact hbusy rfl (Job.shown_setLayer layer (by rfl) k)
  | call control =>
      refine hbusy ?_ (Job.shown_congr rfl rfl)
      cases hsleep : (job.task.script job.task.calls e.calls.length).sleep <;>
        simp [callControl, hsleep, Control.station, Station.result?]
  | answer control ending =>
      have hlength : run.stack.length = job.chain.length := innermost (by simp [Run.calls, control])
      have hbefore : run.departed? k = none := Run.departed?_of_silent (by rw [control]; rfl) k
      rw [Job.shown_answered keeps, Run.emerges?_of_leaving fun _ => hbefore, hlength]
      split <;> rfl
  | bar control stack | rescue control stack | settle control stack | stop control stack =>
      exact hout stack rfl rfl rfl
  | pass control stack plain =>
      obtain ⟨w, hw, hfits⟩ := hpop stack
      refine hquiet ?_ (Job.shown_released hw hfits k)
      obtain ⟨l, hl, rfl⟩ := Job.exists_layer hw
      have hplain := (Wrapper.keepsOutcome_of_fits hfits).trans plain
      rw [Layer.keepsOutcome_wrapper] at hplain
      rw [Run.departed?, if_neg (hcall hl hplain)]
      rfl
  | unwind control stack =>
      obtain ⟨w, hw, hfits⟩ := hpop stack
      exact hbusy rfl (Job.shown_released hw hfits k)
  | miss | letIn | wake | proceed | burst | overflow | pause | again | finish | escape =>
      exact hbusy rfl rfl

/-- A run that is inside a call of its task has entered all layers. -/
def Inmost (e : Executor) : Prop :=
  ∀ run ∈ e.runs, run.calls = true →
    ∃ job, e.jobs[run.job]? = some job ∧ run.stack.length = job.chain.length

theorem Inmost.occurs
    (inmost : e.Inmost)
    (orderly : e.Orderly)
    (occurs : e.Occurs e') :
    e'.Inmost := by
  suffices hbefore : ∀ run ∈ e'.runs, run.calls = true →
      ∃ job, e.jobs[run.job]? = some job ∧ run.stack.length = job.chain.length by
    intro run hrun hcalls
    obtain ⟨job, hjob, hlength⟩ := hbefore run hrun hcalls
    obtain ⟨job', hjob', hchain⟩ := occurs.chain orderly hjob
    exact ⟨job', hjob', by rw [hchain]; exact hlength⟩
  rcases occurs.episode_or_dropped orderly.rooted with
    hepisode | ⟨r, run, job, entry, decorated, hdropped⟩
  · refine hepisode.forall_runs inmost ?_ ?_
    · rintro run ⟨-, ctx, hcontrol⟩ hcalls
      simp [Run.calls, hcontrol] at hcalls
    · intro r run run' job job' signs hmem decorated hwalk hcalls
      cases hwalk with
      | call control innermost =>
          refine ⟨job, decorated, le_antisymm (orderly.fits run hmem job decorated).length_le ?_⟩
          rw [Job.length_chain]
          exact List.getElem?_eq_none_iff.1 innermost
      | wake control | proceed control => exact inmost run hmem (by simp [Run.calls, control])
      | enter | skip | miss | join | take | letIn | answer | burst | bar | rescue | overflow
      | settle | pause | again | stop | pass | unwind | finish | escape =>
          simp [Run.calls] at hcalls
  · intro other hother hcalls
    rw [hdropped.runs] at hother
    rcases List.mem_or_eq_of_mem_set hother with hold | rfl
    · exact inmost other hold hcalls
    · simp [Run.calls] at hcalls

/-- From nothing on, all is in order on every path. -/
theorem Path.inmost
    {e₀ : Executor}
    {l : List (Executor × Executor)}
    (path : Path Occurs e₀ l e)
    (runs₀ : e₀.runs = [])
    (jobs₀ : e₀.jobs = []) :
    e.Inmost := by
  induction path with
  | start =>
      intro run hrun
      simp [runs₀] at hrun
  | next path last ih => exact ih.occurs (path.orderly runs₀ jobs₀).1 last

section Emerging

variable {j : JobId} {k : Nat}

/-- The outcome with which a run of a job comes out at a depth in a step. -/
def emerges?
    (j : JobId)
    (k : Nat)
    (s : Executor × Executor)
    (r : RunId) :
    Option Outcome :=
  match s.1.runs[r]?, s.2.runs[r]? with
  | some run, some run' => if run.job = j then run.emerges? run' k else none
  | _, _ => none

/-- The runs of a job that come out at a depth in a step, with their outcomes. -/
def emerged
    (j : JobId)
    (k : Nat)
    (s : Executor × Executor) :
    List (RunId × Outcome) :=
  (List.range s.1.runs.length).filterMap fun r => (emerges? j k s r).map fun o => (r, o)

/-- The runs of a job that come out at a depth on a path, with their outcomes, in order. -/
def outcomes
    (j : JobId)
    (k : Nat)
    (l : List (Executor × Executor)) :
    List (RunId × Outcome) :=
  l.flatMap (emerged j k)

theorem outcomes_concat
    (j : JobId)
    (k : Nat)
    (l : List (Executor × Executor))
    (s : Executor × Executor) :
    outcomes j k (l ++ [s]) = outcomes j k l ++ emerged j k s := by
  simp [outcomes]

theorem emerges?_of_entry_eq (same : e'.runs[r]? = e.runs[r]?) :
    emerges? j k (e, e') r = none := by
  unfold emerges?
  rw [same]
  cases e.runs[r]? with
  | none => rfl
  | some run =>
      by_cases hj : run.job = j
      · by_cases hk : run.departed? k = none <;> simp [hj, Run.emerges?, hk]
      · simp [hj]

/-- No run comes out while all runs stay as they are. -/
theorem emerged_eq_nil (same : ∀ i < e.runs.length, e'.runs[i]? = e.runs[i]?) :
    emerged j k (e, e') = [] := by
  refine List.filterMap_eq_nil_iff.2 fun i hi => ?_
  rw [emerges?_of_entry_eq (same i (List.mem_range.1 hi)), Option.map_none]

/-- Where one run changes, it is the only one that may come out. -/
theorem emerged_of_set
    (entry : e.runs[r]? = some run)
    (runs : e'.runs = e.runs.set r run') :
    emerged j k (e, e') =
      ((if run.job = j then run.emerges? run' k else none).map fun o => (r, o)).toList := by
  have hlt : r < e.runs.length := (List.getElem?_eq_some_iff.1 entry).1
  rw [emerged, filterMap_range_of_single (k := r) ?_ hlt]
  · unfold emerges?
    rw [runs, entry, List.getElem?_set_self hlt]
  · intro i hi
    rw [emerges?_of_entry_eq (by rw [runs, List.getElem?_set_ne (Ne.symm hi)]), Option.map_none]

/-- A run that is dropped comes out nowhere. -/
theorem emerges?_dropped
    (run : Run)
    (k : Nat) :
    run.emerges? { run with stack := [], control := .dropped } k = none := by
  have hsilent : Run.departed? { run with stack := [], control := .dropped } k = none :=
    Run.departed?_of_silent rfl k
  rw [Run.emerges?, hsilent, Option.bind_none, ite_self]

/-- **What is kept at a depth is the outcome with which a run comes out there**, if one does, and
what has been kept before otherwise. -/
theorem Occurs.shown
    (occurs : e.Occurs e')
    (orderly : e.Orderly)
    (inmost : e.Inmost)
    (decorated : e.jobs[j]? = some job)
    (decorated' : e'.jobs[j]? = some job')
    (keeps : job.chain.KeepsAt k) :
    job'.shown k = (((emerged j k (e, e')).getLast?).map Prod.snd).or (job.shown k) := by
  cases occurs.touch orderly.rooted with
  | @changes r run run' own own' entry hown changed runs jobs places how =>
      have hmem := List.mem_of_getElem? entry
      have hfits := orderly.fits run hmem own hown
      rw [emerged_of_set entry runs]
      rw [jobs] at decorated'
      by_cases hj : run.job = j
      · subst hj
        rw [List.getElem?_set_self (List.getElem?_eq_some_iff.1 hown).1] at decorated'
        obtain rfl := Option.some.inj decorated'
        obtain rfl := Option.some.inj (hown.symm.trans decorated)
        have hlast : ∀ o : Option Outcome,
            ((o.map fun o => (r, o)).toList.getLast?).map Prod.snd = o := by
          intro o
          cases o <;> rfl
        rw [if_pos rfl, hlast]
        rcases how with ⟨signs, walked⟩ | ⟨rfl, rfl, -⟩
        · refine walked.walk.remembered hfits (fun hcalls => ?_) keeps
          obtain ⟨job₁, hjob₁, hlength⟩ := inmost run hmem hcalls
          obtain rfl := Option.some.inj (hown.symm.trans hjob₁)
          exact hlength
        · rw [emerges?_dropped, Option.none_or, Job.shown_dropped hfits]
      · rw [List.getElem?_set_ne hj, decorated] at decorated'
        obtain rfl := Option.some.inj decorated'
        rw [if_neg hj]
        rfl
  | spares runs jobs =>
      obtain rfl := Option.some.inj ((jobs j job decorated).symm.trans decorated')
      rw [emerged_eq_nil]
      · rfl
      · intro i hi
        have hrun := List.getElem?_eq_getElem hi
        rw [runs i _ hrun, hrun]

/-- No run comes out of a job that there is not. -/
theorem Occurs.emerged_of_none
    (occurs : e.Occurs e')
    (rooted : e.Rooted)
    (noJob : e.jobs[j]? = none) :
    emerged j k (e, e') = [] := by
  cases occurs.touch rooted with
  | @changes r run run' own own' entry hown changed runs =>
      rw [emerged_of_set entry runs, if_neg]
      · rfl
      · rintro rfl
        rw [hown] at noJob
        cases noJob
  | spares runs =>
      refine emerged_eq_nil fun i hi => ?_
      have hrun := List.getElem?_eq_getElem hi
      rw [runs i _ hrun, hrun]

/-- A new job is as it was made. -/
theorem Befalls.made
    (befalls : e.Befalls e')
    (noJob : e.jobs[j]? = none)
    (decorated : e'.jobs[j]? = some job) :
    ∃ (c : Chain) (t : Task), job = .ofTask c t ∧ t.last = none := by
  have hold : e'.jobs.length = e.jobs.length → False := by
    intro hlength
    have hlt := (List.getElem?_eq_some_iff.1 decorated).1
    rw [List.getElem?_eq_none_iff] at noJob
    omega
  have hadded : ∀ new, e'.jobs = e.jobs ++ [new] → job = new := by
    intro new hjobs
    rw [hjobs, List.getElem?_append_right (List.getElem?_eq_none_iff.1 noJob)] at decorated
    exact List.mem_singleton.1 (List.mem_of_getElem? decorated)
  cases befalls with
  | cancel t => exact (hold rfl).elim
  | act h =>
      cases h with
      | startEngine => exact (hold rfl).elim
      | change h =>
          cases h with
          | drift h =>
              cases h with
              | move m h =>
                  cases m with
                  | run r =>
                      obtain ⟨_, _, -, hstep⟩ := runStep_of_mem_runMoves h
                      exact (hold hstep.jobs.length).elim
                  | timer n =>
                      obtain ⟨_, _, -, hdriven⟩ := driven_of_mem_timerMoves h
                      exact (hold (congrArg List.length hdriven.jobs)).elim
                  | waiter n =>
                      exact (hold (congrArg List.length (same_of_mem_waiterMoves h).2)).elim
              | launch | exhaust | clock | line | note | wait => exact (hold rfl).elim
          | close n =>
              rcases e.close_eq n with hEq | ⟨s, hEq⟩ <;>
                · rw [hEq] at hold
                  exact (hold rfl).elim
          | rearm s => exact (hold (e.quiet_rearm s).jobs.length).elim
          | giveUp | trigger | stopEngine | arm => exact (hold rfl).elim
          | addJob key value script => exact ⟨_, _, hadded _ rfl, rfl⟩

theorem Occurs.made
    (occurs : e.Occurs e')
    (noJob : e.jobs[j]? = none)
    (decorated : e'.jobs[j]? = some job) :
    ∃ (c : Chain) (t : Task), job = .ofTask c t ∧ t.last = none := by
  cases occurs with
  | befalls h => exact h.made noJob decorated
  | drop entry hown =>
      exfalso
      rcases dropped_of_dropRun entry hown with ⟨-, hsame⟩ | hdropped
      · rw [hsame, noJob] at decorated
        cases decorated
      · rw [hdropped.jobs, List.getElem?_eq_none_iff.2
          (by rw [List.length_set]; exact List.getElem?_eq_none_iff.1 noJob)] at decorated
        cases decorated

/-- **What is kept at a depth of a job is the outcome with which the last run has come out
there**, from nothing on, whatever occurs. -/
theorem Path.shown
    {e₀ : Executor}
    {l : List (Executor × Executor)}
    (path : Path Occurs e₀ l e)
    (runs₀ : e₀.runs = [])
    (jobs₀ : e₀.jobs = [])
    (decorated : e.jobs[j]? = some job)
    (keeps : job.chain.KeepsAt k) :
    job.shown k = ((outcomes j k l).getLast?).map Prod.snd := by
  suffices hall : (e.jobs[j]? = none → outcomes j k l = []) ∧
      ∀ job, e.jobs[j]? = some job → job.chain.KeepsAt k →
        job.shown k = ((outcomes j k l).getLast?).map Prod.snd from
    hall.2 job decorated keeps
  clear decorated keeps
  induction path with
  | start => exact ⟨fun _ => rfl, fun job hjob => by simp [jobs₀] at hjob⟩
  | @next l d d' path last ih =>
      have horderly := (path.orderly runs₀ jobs₀).1
      rw [outcomes_concat]
      cases hjob : d.jobs[j]? with
      | none =>
          rw [ih.1 hjob, last.emerged_of_none horderly.rooted hjob]
          refine ⟨fun _ => rfl, fun job' hjob' keeps => ?_⟩
          obtain ⟨c, t, rfl, hfresh⟩ := last.made hjob hjob'
          exact Job.shown_ofTask c hfresh k
      | some job =>
          obtain ⟨job₁, hjob₁, hchain⟩ := last.chain horderly hjob
          refine ⟨fun hnone => ?_, fun job' hjob' keeps => ?_⟩
          · rw [hjob₁] at hnone
            cases hnone
          · obtain rfl := Option.some.inj (hjob₁.symm.trans hjob')
            rw [hchain] at keeps
            rw [last.shown horderly (path.inmost runs₀ jobs₀) hjob hjob₁ keeps, ih.2 job hjob keeps,
              List.getLast?_append, Option.map_or]

/-- **A job shows the outcome with which the last run has come out of its keeper.** -/
theorem lastOutcome_eq_last
    {e₀ : Executor}
    {l : List (Executor × Executor)}
    (runs₀ : e₀.runs = [])
    (jobs₀ : e₀.jobs = [])
    (path : Path Occurs e₀ l e)
    (decorated : e.jobs[j]? = some job) :
    e.lastOutcome j = ((outcomes j job.chain.keeper l).getLast?).map Prod.snd := by
  rw [lastOutcome, decorated, Option.bind_some, Job.lastOutcome_eq_shown]
  exact path.shown runs₀ jobs₀ decorated job.chain.keepsAt_keeper

end Emerging

end Executor
end Timetable
