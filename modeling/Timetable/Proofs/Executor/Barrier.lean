import Timetable.Proofs.Executor.Ledger
import Timetable.Proofs.Executor.Likeness

/-!
# Behind a fault barrier

A job whose outermost layer is a fault barrier never lets a run out by unwinding,
whatever the layers inside are and however the calls of the task end.  A run that is
over has returned an outcome.  If it was the only one of its job while it lasted, the
job shows this outcome, no layer keeps a note of it, no tracker counts it, and from
then on the job does what it would do in new layers.

A run is outside the barrier twice: on its way in, before it has entered any layer, and
on its way out, when it has an outcome.

Main results:

* a run comes out of the barrier with an outcome, which the barrier keeps
  (Walk.outermost);
* a run that has unwound up to the barrier returns with the message of what it carried
  (Caught.befell);
* the contract of a fault barrier (barrier_contains).
-/

namespace Timetable

/-- The outcome that a run on its way out carries. -/
def Control.outcome? : Control → Option Outcome
  | leaving o => some o
  | returned o => some o
  | _ => none

/-- A run outside all layers is on its way in, or has an outcome. -/
def Run.Sheltered (run : Run) : Prop :=
  run.stack = [] → (∃ ctx, run.control = .entering ctx) ∨ run.control.outcome?.isSome = true

/-- A run that is neither on its way in nor on its way out is inside. -/
theorem Run.Sheltered.inside
    {run : Run}
    (sheltered : run.Sheltered)
    (noEntry : ∀ ctx, run.control ≠ .entering ctx)
    (noOutcome : run.control.outcome? = none) :
    run.stack ≠ [] := by
  intro hstack
  rcases sheltered hstack with ⟨ctx, hcontrol⟩ | hsome
  · exact noEntry ctx hcontrol
  · rw [noOutcome] at hsome
    cases hsome

/-- The outermost layer of a job is a fault barrier. -/
def Job.Barred (job : Job) : Prop :=
  job.chain.head? = some .recover

namespace Job

variable {job : Job}

theorem Barred.wrapper (barred : job.Barred) : job.chain[0]? = some .recover := by
  rw [← List.head?_eq_getElem?]
  exact barred

/-- The layer that a run outside finds is the barrier. -/
theorem Barred.layer
    (barred : job.Barred)
    {run : Run}
    (stack : run.stack = []) :
    ∃ last, job.layers[run.stack.length]? = some (.recover last) := by
  obtain ⟨l, hl, hwrapper⟩ := exists_layer barred.wrapper
  cases l with
  | recover last => exact ⟨last, by rw [stack]; exact hl⟩
  | track | retry | skip | delay | trace | tag => cases hwrapper

/-- The outermost frame of a run is that of the barrier. -/
theorem Barred.frame
    (barred : job.Barred)
    {f : Frame}
    (fits : job.chain.Fits [f]) :
    f = .recover := by
  obtain ⟨⟨w, hw, hfits⟩, -⟩ := fits
  obtain rfl := Option.some.inj (barred.wrapper.symm.trans hw)
  cases f <;> simp [Wrapper.fits] at hfits
  rfl

/-- A run leaves a layer other than the barrier for one that is inside the barrier. -/
theorem Barred.frames_ne
    (barred : job.Barred)
    {run : Run}
    {f : Frame}
    {frames : List Frame}
    (fits : job.chain.Fits run.stack)
    (stack : run.stack = f :: frames)
    (h : f ≠ .recover) :
    frames ≠ [] := by
  rintro rfl
  rw [stack] at fits
  exact h (barred.frame fits)

/-- The job shows what the barrier keeps. -/
theorem Barred.lastOutcome_setLast
    (barred : job.Barred)
    (o : Outcome) :
    (job.setLast 0 o).lastOutcome = some o := by
  obtain ⟨l, hl, hwrapper⟩ := exists_layer barred.wrapper
  obtain ⟨layers, task⟩ := job
  cases layers with
  | nil => cases hl
  | cons outer inner =>
      obtain rfl : outer = l := Option.some.inj hl
      cases outer <;> simp [Layer.wrapper] at hwrapper
      rfl

end Job

namespace Executor

variable {e e' : Executor} {r : RunId} {run run' : Run} {job job' : Job} {signs : List Sign}

/-- **A run that is outside after a move has come out of the barrier with an outcome, which the
barrier keeps, or has returned the outcome with which it came out.** -/
theorem Walk.outermost
    (h : e.Walk r run job run' job' signs)
    (fits : job.chain.Fits run.stack)
    (barred : job.Barred)
    (sheltered : run.Sheltered)
    (outside : run'.stack = []) :
    (∃ o, run'.control = .leaving o ∧ job' = job.setLast 0 o) ∨
      ∃ o, run.stack = [] ∧ run.control = .leaving o ∧ run'.control = .returned o ∧
        job' = job := by
  cases h with
  | enter | take | letIn | pause | again => cases outside
  | skip control layer | miss control layer | join control layer | call control layer =>
      obtain ⟨last, hl⟩ := barred.layer outside
      rw [hl] at layer
      cases layer
  | wake control | proceed control | answer control | burst control | escape control =>
      exact absurd outside (sheltered.inside (by simp [control]) (by rw [control]; rfl))
  | bar control stack =>
      obtain rfl : _ = [] := outside
      exact Or.inl ⟨_, rfl, rfl⟩
  | rescue control stack =>
      obtain rfl : _ = [] := outside
      exact Or.inl ⟨_, rfl, rfl⟩
  | overflow control stack | settle control stack | stop control stack =>
      exact absurd outside (barred.frames_ne fits stack (by simp))
  | pass control stack plain =>
      refine absurd outside (barred.frames_ne fits stack ?_)
      rintro rfl
      cases plain
  | unwind control stack open' => exact absurd outside (barred.frames_ne fits stack open')
  | finish control stack => exact Or.inr ⟨_, stack, control, rfl, rfl⟩

theorem Walk.sheltered
    (h : e.Walk r run job run' job' signs)
    (fits : job.chain.Fits run.stack)
    (barred : job.Barred)
    (sheltered : run.Sheltered) :
    run'.Sheltered := by
  intro outside
  have houtermost := h.outermost fits barred sheltered outside
  rcases houtermost with ⟨o, hcontrol, -⟩ | ⟨o, -, -, hcontrol, -⟩ <;>
    · rw [hcontrol]
      exact Or.inr rfl

/-- The runs of jobs behind a barrier are sheltered. -/
def Barriers (e : Executor) : Prop :=
  ∀ run ∈ e.runs, ∀ job, e.jobs[run.job]? = some job → job.Barred → run.Sheltered

theorem Barriers.episode
    (barriers : e.Barriers)
    (orderly : e.Orderly)
    (episode : e.Episode e') :
    e'.Barriers := by
  have hunmoved : ∀ run : Run, run.Unmoved → run.Sheltered := fun run unmoved _ =>
    Or.inl unmoved.2
  have hold : ∀ run ∈ e'.runs, ∀ job, e.jobs[run.job]? = some job → job.Barred →
      run.Sheltered := by
    refine episode.forall_runs barriers (fun run unmoved _ _ _ => hunmoved run unmoved) ?_
    intro r run run' job job' signs hmem decorated hwalk other hother barred
    rw [hwalk.job, decorated] at hother
    obtain rfl := Option.some.inj hother
    exact hwalk.sheltered (orderly.fits run hmem job decorated) barred
      (barriers run hmem job decorated barred)
  intro run hrun job hjob barred
  rcases episode.chain_before orderly hjob with ⟨old, hdecorated, hchain⟩ | hle
  · exact hold run hrun old hdecorated ((congrArg List.head? hchain).trans barred)
  · exact hunmoved run ((episode.rooted orderly.rooted run hrun).resolve_left (Nat.not_lt.2 hle))

theorem Barriers.befell
    (barriers : e.Barriers)
    (orderly : e.Orderly)
    (befell : e.Befell e') :
    e'.Barriers := by
  induction befell with
  | refl => exact barriers
  | tail before befalls ih =>
      have horderly := orderly.befell before
      exact ih.episode horderly (befalls.episode horderly.rooted)

/-- A run has unwound up to the barrier with something that it carries, or has come out of the
barrier since. -/
def Caught
    (p : Payload)
    (run : Run) :
    Prop :=
  run.stack = [.recover] ∧ run.control = .unwinding p ∨
    run.stack = [] ∧ run.control.outcome? = some (.err (.panicked p.message))

theorem Walk.caught
    {p : Payload}
    (h : e.Walk r run job run' job' signs)
    (caught : Caught p run) :
    Caught p run' := by
  rcases caught with ⟨hstack, hcontrol⟩ | ⟨hstack, houtcome⟩
  · cases h with
    | rescue control stack =>
        obtain rfl := Control.unwinding.inj (hcontrol.symm.trans control)
        rw [hstack] at stack
        exact Or.inr ⟨(List.cons.inj stack).2.symm, rfl⟩
    | unwind control stack open' =>
        rw [hstack] at stack
        exact absurd (List.cons.inj stack).1.symm open'
    | escape control stack =>
        rw [hstack] at stack
        cases stack
    | enter control | skip control | miss control | join control | take control | letIn control
    | call control | wake control | proceed control | answer control | burst control
    | bar control | overflow control | settle control | pause control | again control
    | stop control | pass control | finish control =>
        rw [hcontrol] at control
        cases control
  · cases h with
    | finish control => exact Or.inr ⟨hstack, by rw [control] at houtcome; exact houtcome⟩
    | bar control stack | overflow control stack | settle control stack | pause control stack
    | pass control stack =>
        rw [hstack] at stack
        cases stack
    | enter control | skip control | miss control | join control | take control | letIn control
    | call control | wake control | proceed control | answer control | burst control
    | rescue control | again control | stop control | unwind control | escape control =>
        rw [control] at houtcome
        cases houtcome

/-- **What has unwound up to the barrier comes out as its message**, whatever else happens. -/
theorem Caught.befell
    {p : Payload}
    (befell : e.Befell e')
    (orderly : e.Orderly)
    (entry : e.runs[r]? = some run)
    (caught : Caught p run) :
    ∃ run', e'.runs[r]? = some run' ∧ Caught p run' := by
  induction befell with
  | refl => exact ⟨run, entry, caught⟩
  | tail before befalls ih =>
      obtain ⟨run₁, hrun₁, hcaught⟩ := ih
      have hepisode := befalls.episode (orderly.befell before).rooted
      obtain ⟨run', hrun', rfl | ⟨job, job', signs, -, -, hwalk⟩⟩ := hepisode.run hrun₁
      · exact ⟨_, hrun', hcaught⟩
      · exact ⟨run', hrun', hwalk.caught hcaught⟩

/-- What has unwound up to the barrier is in the outcome of the run when it is over. -/
theorem Caught.outcome_eq
    {p : Payload}
    {o : Outcome}
    (befell : e.Befell e')
    (orderly : e.Orderly)
    (entry : e.runs[r]? = some run)
    (caught : Caught p run)
    (later : e'.runs[r]? = some run')
    (outside : run'.stack = [])
    (returned : run'.control = .returned o) :
    o = .err (.panicked p.message) := by
  obtain ⟨run'', hrun'', hcaught⟩ := Caught.befell befell orderly entry caught
  obtain rfl := Option.some.inj (later.symm.trans hrun'')
  rcases hcaught with ⟨hstack, -⟩ | ⟨-, houtcome⟩
  · rw [outside] at hstack
    cases hstack
  · rw [returned] at houtcome
    exact Option.some.inj houtcome

theorem Befell.keeps
    (befell : e.Befell e')
    (orderly : e.Orderly)
    (entry : e.runs[r]? = some run) :
    ∃ run', e'.runs[r]? = some run' ∧ run'.job = run.job ∧ (run.isOver = true → run' = run) := by
  induction befell with
  | refl => exact ⟨run, entry, rfl, fun _ => rfl⟩
  | tail before befalls ih =>
      obtain ⟨run₁, hrun₁, hjob, hstays⟩ := ih
      have hepisode := befalls.episode (orderly.befell before).rooted
      obtain ⟨run', hrun', hjob', hstays'⟩ := hepisode.keeps hrun₁
      refine ⟨run', hrun', hjob'.trans hjob, fun hover => ?_⟩
      obtain rfl := hstays hover
      exact hstays' hover

theorem Ledger.befell
    (ledger : e.Ledger)
    (befell : e.Befell e') :
    e'.Ledger := by
  induction befell with
  | refl => exact ledger
  | tail _ befalls ih =>
      cases befalls with
      | act act => exact ih.acts (.single act)
      | cancel t => exact ⟨ih.dispatched, ih.balance⟩

theorem Drifts.befell (h : e.Drifts e') : e.Befell e' :=
  Relation.ReflTransGen.mono (fun _ _ h => .act (c := []) (.change (.drift h))) _ _ h

theorem Befell.later
    (befell : e.Befell e') :
    e.Later e' := by
  induction befell with
  | refl => exact .refl e
  | tail _ befalls ih =>
      cases befalls with
      | act act => exact ih.trans act.later
      | cancel t => exact ih.trans (quiet_cancel _ t).later

/-- No run of a job is in progress. -/
def Idle
    (e : Executor)
    (j : JobId) :
    Prop :=
  ∀ run ∈ e.runs, run.job = j → run.isOver = true

/-- Every other run of the job of a run is over, and the job shows the outcome with which the
run has come out. -/
structure Alone
    (e : Executor)
    (r : RunId)
    (run : Run) :
    Prop where
  others : ∀ (k : RunId) (other : Run), e.runs[k]? = some other → other.job = run.job → k ≠ r →
    other.isOver = true
  shown : ∀ o, run.stack = [] → run.control.outcome? = some o → e.lastOutcome run.job = some o

/-- A job behind a barrier shows the outcome with which a run that walks has come out, if it has
shown it before where the run was out already. -/
theorem Walk.shown
    (h : e.Walk r run job run' job' signs)
    (fits : job.chain.Fits run.stack)
    (barred : job.Barred)
    (sheltered : run.Sheltered)
    (shown : ∀ o, run.stack = [] → run.control.outcome? = some o → job.lastOutcome = some o)
    {o : Outcome}
    (outside : run'.stack = [])
    (outcome : run'.control.outcome? = some o) :
    job'.lastOutcome = some o := by
  have houtermost := h.outermost fits barred sheltered outside
  rcases houtermost with ⟨o', hcontrol, rfl⟩ | ⟨o', hstack, hleaving, hcontrol, rfl⟩
  · rw [hcontrol] at outcome
    rw [← outcome]
    exact barred.lastOutcome_setLast o'
  · rw [hcontrol] at outcome
    exact shown o hstack (by rw [hleaving]; exact outcome)

/-- A run of a job behind a barrier stays alone, as long as no other one is started. -/
theorem Alone.episode
    (alone : e.Alone r run)
    (orderly : e.Orderly)
    (barriers : e.Barriers)
    (entry : e.runs[r]? = some run)
    (decorated : e.jobs[run.job]? = some job)
    (barred : job.Barred)
    (episode : e.Episode e')
    (last : ∀ (k : RunId) (later : Run), e'.runs[k]? = some later → later.job = run.job → k ≤ r) :
    ∃ run', e'.runs[r]? = some run' ∧ run'.job = run.job ∧ e'.Alone r run' := by
  have hrunLt : r < e.runs.length := (List.getElem?_eq_some_iff.1 entry).1
  have hjobLt : run.job < e.jobs.length := (List.getElem?_eq_some_iff.1 decorated).1
  have hothers : ∀ (k : RunId) (other : Run), e'.runs[k]? = some other → other.job = run.job →
      k ≠ r → other.isOver = true := by
    intro k other hother hjob hk
    have hlt : k < e.runs.length := Nat.lt_of_le_of_lt (last k other hother hjob) hrunLt
    have hold := List.getElem?_eq_getElem hlt
    obtain ⟨other', hother', hjob', hstays⟩ := episode.keeps hold
    obtain rfl := Option.some.inj (hother.symm.trans hother')
    have hover := alone.others k _ hold (hjob'.symm.trans hjob) hk
    rw [hstays hover]
    exact hover
  cases episode with
  | launch runs jobs =>
      refine ⟨run, by rw [runs, List.getElem?_append_left hrunLt, entry], rfl, hothers, ?_⟩
      rw [lastOutcome, jobs]
      exact alone.shown
  | aside more runs jobs =>
      refine ⟨run, by rw [runs, entry], rfl, hothers, ?_⟩
      rw [lastOutcome, jobs, List.getElem?_append_left hjobLt]
      exact alone.shown
  | @walk k other run' own own' signs walking own_eq walked =>
      by_cases hk : k = r
      · subst hk
        obtain rfl := Option.some.inj (entry.symm.trans walking)
        obtain rfl := Option.some.inj (decorated.symm.trans own_eq)
        have hjob := walked.walk.job
        have hmem := List.mem_of_getElem? entry
        have hshown : ∀ o, run.stack = [] → run.control.outcome? = some o →
            job.lastOutcome = some o := by
          intro o outside houtcome
          have hbefore := alone.shown o outside houtcome
          rwa [lastOutcome, decorated] at hbefore
        refine ⟨run', by rw [walked.runs, List.getElem?_set_self hrunLt], hjob,
          by rw [hjob]; exact hothers, ?_⟩
        intro o outside houtcome
        rw [hjob, lastOutcome, walked.jobs, List.getElem?_set_self hjobLt]
        exact walked.walk.shown (orderly.fits run hmem job decorated) barred
          (barriers run hmem job decorated barred) hshown outside houtcome
      · have hne : other.job ≠ run.job := by
          intro hsame
          have hover := alone.others k other walking hsame hk
          rw [walked.walk.lasts] at hover
          cases hover
        refine ⟨run, by rw [walked.runs, List.getElem?_set_ne hk, entry], rfl, hothers, ?_⟩
        rw [lastOutcome, walked.jobs, List.getElem?_set_ne hne]
        exact alone.shown

theorem Alone.befell
    (alone : e.Alone r run)
    (orderly : e.Orderly)
    (barriers : e.Barriers)
    (entry : e.runs[r]? = some run)
    (decorated : e.jobs[run.job]? = some job)
    (barred : job.Barred)
    (befell : e.Befell e')
    (last : ∀ (k : RunId) (later : Run), e'.runs[k]? = some later → later.job = run.job → k ≤ r) :
    ∃ run', e'.runs[r]? = some run' ∧ run'.job = run.job ∧ e'.Alone r run' := by
  induction befell with
  | refl => exact ⟨run, entry, rfl, alone⟩
  | @tail e₁ e₂ before befalls ih =>
      have horderly := orderly.befell before
      have hepisode := befalls.episode horderly.rooted
      have hlast : ∀ (k : RunId) (later : Run), e₁.runs[k]? = some later →
          later.job = run.job → k ≤ r := by
        intro k later hlater hjob
        obtain ⟨later', hlater', hjob', -⟩ := hepisode.keeps hlater
        exact last k later' hlater' (hjob'.trans hjob)
      obtain ⟨run₁, hrun₁, hjob₁, halone₁⟩ := ih hlast
      obtain ⟨job₁, hdecorated, hchain⟩ := Befell.chain before orderly decorated
      have hbarred : job₁.Barred := by
        unfold Job.Barred
        rw [hchain]
        exact barred
      rw [← hjob₁] at last hdecorated ⊢
      exact halone₁.episode horderly (barriers.befell orderly before) hrun₁ hdecorated hbarred
        hepisode last

/-- A run that is started has not moved yet. -/
theorem Episode.started
    (episode : e.Episode e')
    (runs : e'.runs = e.runs ++ [run]) :
    run.Unmoved ∧ e'.jobs = e.jobs := by
  have hlength := congrArg List.length runs
  rw [List.length_append, List.length_singleton] at hlength
  cases episode with
  | walk entry decorated walked =>
      rw [walked.runs, List.length_set] at hlength
      omega
  | aside more same =>
      rw [same] at hlength
      omega
  | launch runs' jobs unmoved =>
      have hrun := (List.append_cancel_left (runs'.symm.trans runs))
      obtain rfl := List.singleton_inj.1 hrun
      exact ⟨unmoved, jobs⟩

/-- What counts on a tracker besides the runs of a job. -/
def besides
    (e : Executor)
    (j : JobId)
    (t : TrackerId) :
    Nat :=
  ((e.runs.filter fun run => run.job ≠ j).map fun run => run.load t).sum +
    if t = e.dispatched then e.countedTimers else 0

/-- No tracker counts a job of which no run is in progress. -/
theorem inFlight_of_idle
    (ledger : e.Ledger)
    (orderly : e.Orderly)
    {j : JobId}
    (idle : e.Idle j)
    {t : TrackerId}
    (ht : t < e.trackers.length) :
    e.inFlight t = e.besides j t := by
  have hload : ∀ run ∈ e.runs, run.job = j → run.load t = 0 := by
    intro run hrun hj
    have hover := idle run hrun hj
    simp [Run.load, orderly.ended run hrun hover, hover]
  have hsum : ∀ runs : List Run, (∀ run ∈ runs, run.job = j → run.load t = 0) →
      (runs.map fun run => run.load t).sum =
        ((runs.filter fun run => run.job ≠ j).map fun run => run.load t).sum := by
    intro runs hruns
    induction runs with
    | nil => rfl
    | cons run runs ih =>
        have htail := ih fun other hother => hruns other (List.mem_cons_of_mem _ hother)
        by_cases hj : run.job = j
        · simp [hj, hruns run List.mem_cons_self hj, htail]
        · simp [hj, htail]
  rw [ledger.balance t ht, besides, loads, hsum e.runs hload]

/-- The executor in which a job has been decorated anew. -/
def renewed
    (e : Executor)
    (j : JobId)
    (c : Chain) :
    Executor :=
  e.modifyJob j fun job => { job with layers := c.layers }

/-- A job with its layers as they were made is alike one that has been decorated anew. -/
theorem alike_renewed
    {j : JobId}
    (decorated : e.jobs[j]? = some job)
    {c : Chain}
    (idle : job.layers.map Layer.bare = c.layers) :
    Alike j e (e.renewed j c) := by
  refine .intro (List.ext_getElem? fun k => ?_)
  simp only [List.getElem?_modify]
  by_cases hk : j = k
  · subst hk
    have hbare : c.layers.map Layer.bare = c.layers := by
      rw [← idle, List.map_map]
      exact List.map_congr_left fun l _ => l.bare_bare
    simp [decorated, Job.bare, hbare, idle]
  · simp [hk]

/-- How the runs of a job have left it behind since an earlier time: its layers are as they were
made but for the outcomes that they keep, each tracker has changed by what others count on it,
and from then on happens what would happen if the job were decorated anew. -/
structure LeftBehind
    (e e' : Executor)
    (j : JobId)
    (c : Chain) :
    Prop where
  layers : ∃ job, e'.jobs[j]? = some job ∧ job.layers.map Layer.bare = c.layers
  trackers : ∀ t < e.trackers.length,
    e'.inFlight t + e.besides j t = e.inFlight t + e'.besides j t
  onwards : ∀ d, e'.Befell d → ∃ d', (e'.renewed j c).Befell d' ∧ Alike j d d'
  likewise : ∀ d', (e'.renewed j c).Befell d' → ∃ d, e'.Befell d ∧ Alike j d d'

/-- No run of a job behind a barrier has left it by unwinding, and those that are over have
returned an outcome. -/
theorem Barriers.returned
    (barriers : e.Barriers)
    (orderly : e.Orderly)
    (mem : run ∈ e.runs)
    (decorated : e.jobs[run.job]? = some job)
    (barred : job.Barred)
    (ended : run.isOver = true) :
    ∃ o, run.control = .returned o := by
  have hstack := orderly.ended run mem ended
  unfold Run.isOver at ended
  rcases barriers run mem job decorated barred hstack with ⟨ctx, hcontrol⟩ | hsome
  · rw [hcontrol] at ended
    cases ended
  · cases hcontrol : run.control with
    | returned o => exact ⟨o, rfl⟩
    | _ => simp [hcontrol, Control.outcome?] at ended hsome

/-- When a run that is alone is over, no run of its job is in progress. -/
theorem Alone.idle
    (alone : e.Alone r run)
    (entry : e.runs[r]? = some run)
    (ended : run.isOver = true) :
    e.Idle run.job := by
  intro other hother hsame
  obtain ⟨k, hk⟩ := List.mem_iff_getElem?.1 hother
  by_cases hkr : k = r
  · subst hkr
    obtain rfl := Option.some.inj (entry.symm.trans hk)
    exact ended
  · exact alone.others k other hk hsame hkr

/-- A run that is started while no other one of its job is in progress is alone. -/
theorem alone_of_started
    (runs : e'.runs = e.runs ++ [run])
    (unmoved : run.Unmoved)
    (idle : e.Idle run.job) :
    e'.Alone e.runs.length run := by
  refine ⟨?_, ?_⟩
  · intro k other hother hjob hk
    rw [runs] at hother
    rcases getElem?_concat_cases hother with hold | ⟨hnew, -⟩
    · exact idle other (List.mem_of_getElem? hold) hjob
    · exact absurd hnew hk
  · intro o _ houtcome
    obtain ⟨-, ctx, hcontrol⟩ := unmoved
    rw [hcontrol] at houtcome
    cases houtcome

theorem leftBehind_of_idle
    {c : Chain}
    {j : JobId}
    (ledger : e.Ledger)
    (orderly : e.Orderly)
    (orderly' : e'.Orderly)
    (befell : e.Befell e')
    (idle : e.Idle j)
    (idle' : e'.Idle j)
    (decorated : e'.jobs[j]? = some job)
    (chain : job.chain = c) :
    LeftBehind e e' j c := by
  have hlayers : job.layers.map Layer.bare = c.layers := by
    rw [orderly'.idle decorated idle', chain]
  have halike := alike_renewed decorated hlayers
  refine ⟨⟨job, decorated, hlayers⟩, ?_, fun d => halike.befell, ?_⟩
  · intro t ht
    rw [inFlight_of_idle ledger orderly idle ht,
      inFlight_of_idle (ledger.befell befell) orderly' idle' (befell.later.trackers.symm ▸ ht),
      Nat.add_comm]
  · intro d' hd'
    obtain ⟨d, hd, hback⟩ := halike.symm.befell hd'
    exact ⟨d, hd, hback.symm⟩

/-- **The contract of a fault barrier.**  A run of a job behind a barrier is started while no
other one of the job is in progress.  Whatever happens, it never leaves the job by unwinding.
Once it is over it has returned an outcome, which is the failure with the message of what it
carried if it had to unwind up to the barrier; and if no other run of the job has been started,
the job shows this outcome and none of its runs is in progress.  Whenever none is, the runs have
left nothing behind. -/
theorem barrier_contains
    {e₀ e e₁ e' : Executor}
    {c : Chain}
    {j : JobId}
    {job : Job}
    {started : Run}
    (ledger : e₀.Ledger)
    (runs₀ : e₀.runs = [])
    (jobs₀ : e₀.jobs = [])
    (before : e₀.Befell e)
    (decorated : e.jobs[j]? = some job)
    (chain : job.chain = .recover :: c)
    (idle : e.Idle j)
    (start : e.Befalls e₁)
    (runs : e₁.runs = e.runs ++ [started])
    (own : started.job = j)
    (after : e₁.Befell e') :
    ∃ run, e'.runs[e.runs.length]? = some run ∧ (∀ p, run.control ≠ .unwound p) ∧
      (run.isOver = true → ∃ o, run.control = .returned o ∧
        (∀ (d : Executor) (midway : Run) (p : Payload), e₁.Befell d → d.Befell e' →
          d.runs[e.runs.length]? = some midway → midway.stack = [.recover] →
          midway.control = .unwinding p → o = .err (.panicked p.message)) ∧
        ((∀ (k : RunId) (later : Run), e'.runs[k]? = some later → later.job = j →
            k ≤ e.runs.length) →
          e'.lastOutcome j = some o ∧ e'.Idle j)) ∧
      (e'.Idle j → LeftBehind e e' j (.recover :: c)) := by
  subst own
  have horderly := (orderly_of_blank runs₀ jobs₀).befell before
  have hbarriers : e.Barriers := by
    refine Barriers.befell ?_ (orderly_of_blank runs₀ jobs₀) before
    intro run hrun
    simp [runs₀] at hrun
  have hstart := start.episode horderly.rooted
  have horderly₁ := horderly.episode hstart
  have hbarriers₁ := hbarriers.episode horderly hstart
  have horderly' := horderly₁.befell after
  obtain ⟨hunmoved, hjobs₁⟩ := hstart.started runs
  have hentry : e₁.runs[e.runs.length]? = some started := by
    rw [runs, List.getElem?_concat_length]
  have hdecorated : e₁.jobs[started.job]? = some job := by rw [hjobs₁, decorated]
  have hbarred : job.Barred := congrArg List.head? chain
  obtain ⟨run, hrun, hjob, -⟩ := after.keeps horderly₁ hentry
  obtain ⟨job', hdecorated', hchain'⟩ := Befell.chain after horderly₁ hdecorated
  have hbarred' : job'.Barred := (congrArg List.head? hchain').trans hbarred
  have hreturned := (hbarriers₁.befell horderly₁ after).returned horderly'
    (List.mem_of_getElem? hrun) (by rw [hjob, hdecorated']) hbarred'
  refine ⟨run, hrun, ?_, ?_, fun hidle' => ?_⟩
  · intro p hunwound
    obtain ⟨o, ho⟩ := hreturned (by rw [Run.isOver, hunwound])
    rw [hunwound] at ho
    cases ho
  · intro hover
    obtain ⟨o, ho⟩ := hreturned hover
    have hstack := horderly'.ended run (List.mem_of_getElem? hrun) hover
    refine ⟨o, ho, ?_, ?_⟩
    · intro d midway p hd hd' hmidway hinside hunwinding
      exact Caught.outcome_eq hd' (horderly₁.befell hd) hmidway (Or.inl ⟨hinside, hunwinding⟩)
        hrun hstack ho
    · intro last
      obtain ⟨run', hrun', -, halone⟩ := (alone_of_started runs hunmoved idle).befell
        horderly₁ hbarriers₁ hentry hdecorated hbarred after last
      obtain rfl := Option.some.inj (hrun.symm.trans hrun')
      rw [← hjob]
      exact ⟨halone.shown o hstack (by rw [ho]; rfl), halone.idle hrun hover⟩
  · exact leftBehind_of_idle (ledger.befell before) horderly horderly'
      ((Relation.ReflTransGen.single start).trans after) idle hidle' hdecorated'
      (hchain'.trans chain)

/-- An executor with a tracker and a signal, and nothing to do. -/
def bench : Executor :=
  let e := ((atRest .epoch).addTracker true).1
  (e.freshToken.1.addSignal e.freshToken.2).1

/-- A job in six layers, the outermost of which is a fault barrier.  The first call of its task
fails, the second one unwinds. -/
def nested : Executor :=
  let chain : Chain := [.recover, .track 1, .skip, .retry 0 3 shortestRetry, .delay, .trace .silent]
  let calls : List Attempt := [{ ending := .fail "late" }, { ending := .panic (.text "broken") }]
  (bench.addJob chain "sweep" .null (.ofList calls)).1

/-- The executor after a run of the job has been started and time has passed. -/
def shaken : Executor :=
  (nested.spawn 0 (nested.jobContext 0) none).settle.passTo 200

theorem barrier_contains_shaken :
    ∃ run, shaken.runs[0]? = some run ∧
      run.control = .returned (.err (.panicked "broken")) ∧
      shaken.lastOutcome 0 = some (.err (.panicked "broken")) ∧
      LeftBehind nested shaken 0
        [.recover, .track 1, .skip, .retry 0 3 shortestRetry, .delay, .trace .silent] := by
  have hledger : bench.Ledger := ⟨by decide, by decide⟩
  have hbefore : bench.Befell nested := .single (.act (.change (.addJob _ _ _)))
  have hstart : nested.Befalls (nested.spawn 0 (nested.jobContext 0) none) :=
    .act (c := []) (.change (.drift (.launch _ _)))
  have hafter : (nested.spawn 0 (nested.jobContext 0) none).Befell shaken :=
    Drifts.befell ((drifts_settle _).trans (drifts_passUntil _ _ _))
  have hidle : nested.Idle 0 := fun run hrun => by cases hrun
  obtain ⟨run, hrun, -, hover, hleft⟩ :=
    barrier_contains hledger rfl rfl hbefore rfl rfl hidle hstart rfl rfl hafter
  have hone : shaken.runs.length = 1 := by decide +kernel
  have hended : (shaken.runs[0]?).map Run.control =
      some (.returned (.err (.panicked "broken"))) := by
    decide +kernel
  have hcontrol : run.control = .returned (.err (.panicked "broken")) := by
    have hmap := congrArg (Option.map Run.control) hrun
    exact Option.some.inj (hmap.symm.trans hended)
  obtain ⟨o, ho, -, hshown⟩ := hover (by rw [Run.isOver, hcontrol])
  obtain ⟨hlast, hidle'⟩ := hshown fun k later hlater _ => by
    have hlt := (List.getElem?_eq_some_iff.1 hlater).1
    rw [hone] at hlt
    exact Nat.le_of_lt_succ hlt
  rw [hcontrol] at ho
  obtain rfl := Control.returned.inj ho
  exact ⟨run, hrun, hcontrol, hlast, hleft hidle'⟩

end Executor

end Timetable
