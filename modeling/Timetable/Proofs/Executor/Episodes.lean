import Timetable.Proofs.Executor.Custody

/-!
# What befalls runs and jobs

Of all that may happen to the executor, only three things concern its runs and jobs: a
run of a job walks, a run is started, jobs are made.  Each of them leaves the table of
runs in order: the frames of a run are those of its job's layers, a run that is over
has left all layers, and the notes of the layers are right.

Main results:

* whatever happens is one of the three, or concerns neither (Befalls.episode);
* whatever happens leaves everything in order (Orderly.befell), and a job keeps the
  chain that decorates it (Befell.chain);
* a job of which no run is in progress has its layers as they were made
  (Orderly.idle).
-/

namespace Timetable

/-- The run has been started and has not moved yet. -/
def Run.Unmoved (run : Run) : Prop :=
  run.stack = [] ∧ ∃ ctx, run.control = .entering ctx

namespace Executor

/-- What happens at once to the runs and jobs: a run of a job walks, a run is started, or nothing
but that jobs are made. -/
inductive Episode (e e' : Executor) : Prop where
  | walk
      {r : RunId}
      {run run' : Run}
      {job job' : Job}
      {signs : List Sign}
      (entry : e.runs[r]? = some run)
      (decorated : e.jobs[run.job]? = some job)
      (walked : e.Walked e' r run job run' job' signs)
  | launch
      {run : Run}
      (runs : e'.runs = e.runs ++ [run])
      (jobs : e'.jobs = e.jobs)
      (unmoved : run.Unmoved)
  | aside
      (more : List Job)
      (runs : e'.runs = e.runs)
      (jobs : e'.jobs = e.jobs ++ more)
      (made : ∀ job ∈ more, ∃ c : Chain, job.layers = c.layers)

/-- Every run that has moved is one of a job that there is. -/
def Rooted (e : Executor) : Prop :=
  ∀ run ∈ e.runs, run.job < e.jobs.length ∨ run.Unmoved

theorem episode_of_quiet
    {e e' : Executor}
    (runs : e'.runs = e.runs)
    (jobs : e'.jobs = e.jobs) :
    e.Episode e' :=
  .aside [] runs (by rw [jobs, List.append_nil]) (by simp)

/-- A run of a job that there is not stays where it is. -/
theorem runMoves_of_unmoved
    {e : Executor}
    {r : RunId}
    {run : Run}
    (hrun : e.runs[r]? = some run)
    (hjob : e.jobs[run.job]? = none)
    (unmoved : run.Unmoved) :
    e.runMoves r = [] := by
  obtain ⟨-, ctx, hcontrol⟩ := unmoved
  simp [runMoves, hrun, hcontrol, hjob]

/-- Whoever waits for trackers leaves runs and jobs alone. -/
theorem same_of_mem_waiterMoves
    {e e' : Executor}
    {n : Nat}
    (h : e' ∈ e.waiterMoves n) :
    e'.runs = e.runs ∧ e'.jobs = e.jobs := by
  unfold waiterMoves at h
  split at h
  · cases h
  · split at h
    · cases h
    · obtain ⟨-, rfl⟩ := mem_guarded_iff.1 h
      exact ⟨rfl, rfl⟩
    · rw [List.mem_singleton.1 h]
      exact ⟨rfl, rfl⟩

theorem episode_of_mem_moves
    {e e' : Executor}
    {m : Mover}
    (rooted : e.Rooted)
    (h : e' ∈ e.moves m) :
    e.Episode e' := by
  cases m with
  | run r =>
      obtain ⟨run, -, hrun, -⟩ := runStep_of_mem_runMoves h
      cases hjob : e.jobs[run.job]? with
      | some job =>
          obtain ⟨run', job', signs, hwalked⟩ := walked_of_mem_runMoves hrun hjob h
          exact .walk hrun hjob hwalked
      | none =>
          have hunmoved := (rooted run (List.mem_of_getElem? hrun)).resolve_left
            (Nat.not_lt.2 (List.getElem?_eq_none_iff.1 hjob))
          rw [moves, runMoves_of_unmoved hrun hjob hunmoved] at h
          cases h
  | timer n =>
      obtain ⟨t, t', -, hdriven⟩ := driven_of_mem_timerMoves h
      have hruns := hdriven.runs
      unfold launches at hruns
      split at hruns
      · exact .launch hruns hdriven.jobs ⟨rfl, _, rfl⟩
      · rw [List.append_nil] at hruns
        exact episode_of_quiet hruns hdriven.jobs
  | waiter n =>
      obtain ⟨hruns, hjobs⟩ := same_of_mem_waiterMoves h
      exact episode_of_quiet hruns hjobs

/-- Something happens to the executor: an act of a registry with some chain or of somebody
beside it, or somebody cancels a token. -/
inductive Befalls (e : Executor) : Executor → Prop where
  | act
      {c : Chain}
      {e' : Executor}
      (h : Act c e e') :
      Befalls e e'
  | cancel (t : TokenId) : Befalls e (e.cancel t)

/-- Things happen to the executor one after the other. -/
abbrev Befell : Executor → Executor → Prop :=
  Relation.ReflTransGen Befalls

theorem Befalls.episode
    {e e' : Executor}
    (h : e.Befalls e')
    (rooted : e.Rooted) :
    e.Episode e' := by
  cases h with
  | cancel t => exact episode_of_quiet rfl rfl
  | act h =>
      cases h with
      | startEngine => exact episode_of_quiet rfl rfl
      | change h =>
          cases h with
          | drift h =>
              cases h with
              | move m h => exact episode_of_mem_moves rooted h
              | launch j ctx => exact .launch rfl rfl ⟨rfl, ctx, rfl⟩
              | exhaust | clock | line | note | wait => exact episode_of_quiet rfl rfl
          | close n =>
              rcases e.close_eq n with hEq | ⟨s, hEq⟩ <;>
                · rw [hEq]
                  exact episode_of_quiet rfl rfl
          | rearm s =>
              refine episode_of_quiet (e.quiet_rearm s).runs ?_
              unfold rearm
              split <;> rfl
          | addJob key value script =>
              refine .aside [_] rfl rfl ?_
              intro job hjob
              rw [List.mem_singleton.1 hjob]
              exact ⟨_, rfl⟩
          | giveUp | trigger | stopEngine | arm => exact episode_of_quiet rfl rfl

/-- The runs are those of jobs that there are, their frames fit the layers of the jobs, those
that are over have left all layers, and the notes of all layers are right. -/
structure Orderly (e : Executor) : Prop where
  rooted : e.Rooted
  fits : ∀ run ∈ e.runs, ∀ job, e.jobs[run.job]? = some job → job.chain.Fits run.stack
  ended : ∀ run ∈ e.runs, run.isOver = true → run.stack = []
  kept : ∀ (j : JobId) (job : Job), e.jobs[j]? = some job →
    ∀ (d : Nat) (l : Layer), job.layers[d]? = some l → l.Kept (e.places j d)

theorem orderly_of_blank
    {e : Executor}
    (runs : e.runs = [])
    (jobs : e.jobs = []) :
    e.Orderly := by
  refine ⟨?_, by simp [runs], by simp [runs], by simp [jobs]⟩
  intro run hrun
  simp [runs] at hrun

theorem places_unmoved
    {run : Run}
    (unmoved : run.Unmoved)
    (d : Nat) :
    run.place d = .outside := by
  obtain ⟨hstack, ctx, hcontrol⟩ := unmoved
  exact Run.place_of_free (by rw [hcontrol]; rfl) (by simp [hstack])

/-- A run that is started stands outside all layers. -/
theorem places_launch
    {e e' : Executor}
    {run : Run}
    (runs : e'.runs = e.runs ++ [run])
    (unmoved : run.Unmoved) :
    e'.places = e.places := by
  funext j d r
  unfold places
  rw [runs]
  rcases Nat.lt_trichotomy r e.runs.length with hr | hr | hr
  · rw [List.getElem?_append_left hr]
  · subst hr
    rw [List.getElem?_concat_length, List.getElem?_eq_none le_rfl]
    simp [places_unmoved unmoved]
  · rw [List.getElem?_eq_none (by simp; omega), List.getElem?_eq_none hr.le]

/-- A run that walks changes its own place only, and only to the layers of its job. -/
theorem Walked.places
    {e e' : Executor}
    {r : RunId}
    {run run' : Run}
    {job job' : Job}
    {signs : List Sign}
    (entry : e.runs[r]? = some run)
    (h : e.Walked e' r run job run' job' signs)
    (same : run'.job = run.job)
    (j : JobId)
    (d : Nat) :
    e'.places j d =
      if run.job = j then Function.update (e.places j d) r (run'.place d) else e.places j d := by
  have hlt : r < e.runs.length := (List.getElem?_eq_some_iff.1 entry).1
  funext k
  unfold Executor.places
  rw [h.runs]
  by_cases hk : k = r
  · subst hk
    by_cases hj : run.job = j <;> simp [List.getElem?_set_self hlt, entry, same, hj]
  · rw [List.getElem?_set_ne (Ne.symm hk)]
    by_cases hj : run.job = j <;> simp [hj, hk]

theorem Walk.job
    {e : Executor}
    {r : RunId}
    {run run' : Run}
    {job job' : Job}
    {signs : List Sign}
    (h : e.Walk r run job run' job' signs) :
    run'.job = run.job := by
  cases h <;> rfl

/-- A run that is over does not walk. -/
theorem Walk.lasts
    {e : Executor}
    {r : RunId}
    {run run' : Run}
    {job job' : Job}
    {signs : List Sign}
    (h : e.Walk r run job run' job' signs) :
    run.isOver = false := by
  cases h <;> simp [Run.isOver, *]

/-- A run that has come to its end has left all layers. -/
theorem Walk.ended
    {e : Executor}
    {r : RunId}
    {run run' : Run}
    {job job' : Job}
    {signs : List Sign}
    (h : e.Walk r run job run' job' signs)
    (ended : run'.isOver = true) :
    run'.stack = [] := by
  cases h with
  | finish control stack => exact stack
  | escape control stack => exact stack
  | call control =>
      cases hsleep : (job.task.script job.task.calls e.calls.length).sleep <;>
        simp [callControl, Run.isOver, hsleep] at ended
  | enter | skip | miss | join | take | letIn | wake | proceed | answer | burst | bar | rescue
  | overflow | settle | pause | again | stop | pass | unwind => simp [Run.isOver] at ended

section Episodes

variable {e e' : Executor}

/-- A run stays what it is, unless it walks itself. -/
theorem Episode.run
    (episode : e.Episode e')
    {r : RunId}
    {run : Run}
    (entry : e.runs[r]? = some run) :
    ∃ run', e'.runs[r]? = some run' ∧
      (run' = run ∨ ∃ job job' signs, e.jobs[run.job]? = some job ∧
        e'.jobs = e.jobs.set run.job job' ∧ e.Walk r run job run' job' signs) := by
  have hlt : r < e.runs.length := (List.getElem?_eq_some_iff.1 entry).1
  cases episode with
  | launch runs jobs => exact ⟨run, by rw [runs, List.getElem?_append_left hlt, entry], Or.inl rfl⟩
  | aside more runs jobs => exact ⟨run, by rw [runs, entry], Or.inl rfl⟩
  | @walk k other run' job job' signs walking decorated walked =>
      rw [walked.runs]
      by_cases hk : k = r
      · subst hk
        obtain rfl := Option.some.inj (entry.symm.trans walking)
        exact ⟨run', List.getElem?_set_self hlt,
          Or.inr ⟨job, job', signs, decorated, walked.jobs, walked.walk⟩⟩
      · exact ⟨run, by rw [List.getElem?_set_ne hk, entry], Or.inl rfl⟩

/-- A run keeps its job, and what is over stays as it is. -/
theorem Episode.keeps
    (episode : e.Episode e')
    {r : RunId}
    {run : Run}
    (entry : e.runs[r]? = some run) :
    ∃ run', e'.runs[r]? = some run' ∧ run'.job = run.job ∧ (run.isOver = true → run' = run) := by
  obtain ⟨run', hrun', rfl | ⟨job, job', signs, -, -, hwalk⟩⟩ := episode.run entry
  · exact ⟨_, hrun', rfl, fun _ => rfl⟩
  · refine ⟨run', hrun', hwalk.job, fun hover => ?_⟩
    rw [hwalk.lasts] at hover
    cases hover

/-- A job keeps its chain, whatever happens. -/
theorem Episode.chain
    (episode : e.Episode e')
    (orderly : e.Orderly)
    {j : JobId}
    {job : Job}
    (decorated : e.jobs[j]? = some job) :
    ∃ job', e'.jobs[j]? = some job' ∧ job'.chain = job.chain := by
  cases episode with
  | launch runs jobs => exact ⟨job, by rw [jobs, decorated], rfl⟩
  | aside more runs jobs =>
      refine ⟨job, ?_, rfl⟩
      rw [jobs, List.getElem?_append_left (List.getElem?_eq_some_iff.1 decorated).1, decorated]
  | walk entry own walked =>
      have hfits := orderly.fits _ (List.mem_of_getElem? entry) _ own
      rw [walked.jobs]
      exact keeps_set (R := fun a b => b.chain = a.chain) (fun _ => rfl) own
        (walked.walk.fits hfits).1 decorated

/-- A job that there is after an episode has the chain that it had before, or is new. -/
theorem Episode.chain_before
    (episode : e.Episode e')
    (orderly : e.Orderly)
    {j : JobId}
    {job : Job}
    (decorated : e'.jobs[j]? = some job) :
    (∃ old, e.jobs[j]? = some old ∧ old.chain = job.chain) ∨ e.jobs.length ≤ j := by
  by_cases hj : j < e.jobs.length
  · have hold := List.getElem?_eq_getElem hj
    obtain ⟨job', hjob', hchain⟩ := episode.chain orderly hold
    obtain rfl := Option.some.inj (decorated.symm.trans hjob')
    exact Or.inl ⟨_, hold, hchain.symm⟩
  · exact Or.inr (Nat.le_of_not_lt hj)

theorem Episode.length_jobs (episode : e.Episode e') : e.jobs.length ≤ e'.jobs.length := by
  cases episode with
  | walk entry decorated walked => rw [walked.jobs, List.length_set]
  | launch runs jobs => rw [jobs]
  | aside more runs jobs =>
      rw [jobs, List.length_append]
      exact Nat.le_add_right _ _

/-- What holds of a run that has not moved, and what walking keeps, holds of all runs. -/
theorem Episode.forall_runs
    {P : Run → Prop}
    (episode : e.Episode e')
    (before : ∀ run ∈ e.runs, P run)
    (unmoved : ∀ run : Run, run.Unmoved → P run)
    (walked : ∀ (r : RunId) (run run' : Run) (job job' : Job) (signs : List Sign),
      run ∈ e.runs → e.jobs[run.job]? = some job → e.Walk r run job run' job' signs → P run') :
    ∀ run ∈ e'.runs, P run := by
  intro run hrun
  cases episode with
  | walk entry own h =>
      rw [h.runs] at hrun
      rcases List.mem_or_eq_of_mem_set hrun with hmem | rfl
      · exact before run hmem
      · exact walked _ _ _ _ _ _ (List.mem_of_getElem? entry) own h.walk
  | launch runs jobs hunmoved =>
      rw [runs] at hrun
      rcases List.mem_append.1 hrun with hmem | hnew
      · exact before run hmem
      · rw [List.mem_singleton.1 hnew]
        exact unmoved _ hunmoved
  | aside more runs => exact before run (runs ▸ hrun)

/-- A run that has moved has been one of a job that there was. -/
theorem Episode.rooted
    (episode : e.Episode e')
    (rooted : e.Rooted) :
    ∀ run ∈ e'.runs, run.job < e.jobs.length ∨ run.Unmoved := by
  refine episode.forall_runs rooted (fun _ => Or.inr) ?_
  intro r run run' job job' signs _ decorated hwalk
  rw [hwalk.job]
  exact Or.inl (List.getElem?_eq_some_iff.1 decorated).1

/-- A run that is started leaves the notes of all layers right. -/
theorem Orderly.kept_launch
    {run : Run}
    (orderly : e.Orderly)
    (runs : e'.runs = e.runs ++ [run])
    (jobs : e'.jobs = e.jobs)
    (unmoved : run.Unmoved)
    {j : JobId}
    {job : Job}
    (decorated : e'.jobs[j]? = some job)
    {d : Nat}
    {l : Layer}
    (layer : job.layers[d]? = some l) :
    l.Kept (e'.places j d) := by
  rw [jobs] at decorated
  rw [places_launch runs unmoved]
  exact orderly.kept j job decorated d l layer

/-- The layers of a new job are as they were made, and no run has entered them. -/
theorem Orderly.kept_aside
    {more : List Job}
    (orderly : e.Orderly)
    (runs : e'.runs = e.runs)
    (jobs : e'.jobs = e.jobs ++ more)
    (made : ∀ job ∈ more, ∃ c : Chain, job.layers = c.layers)
    {j : JobId}
    {job : Job}
    (decorated : e'.jobs[j]? = some job)
    {d : Nat}
    {l : Layer}
    (layer : job.layers[d]? = some l) :
    l.Kept (e'.places j d) := by
  have hplaces : e'.places = e.places := by
    unfold places
    rw [runs]
  rw [jobs] at decorated
  rw [hplaces]
  by_cases hj : j < e.jobs.length
  · rw [List.getElem?_append_left hj] at decorated
    exact orderly.kept j job decorated d l layer
  · have hle := Nat.le_of_not_lt hj
    rw [List.getElem?_append_right hle] at decorated
    have hnobody : e.places j d = fun _ => .outside := by
      funext r
      unfold places
      cases hrun : e.runs[r]? with
      | none => rfl
      | some run =>
          by_cases hj : run.job = j
          · have hunmoved := (orderly.rooted run (List.mem_of_getElem? hrun)).resolve_left
              (Nat.not_lt.2 (hj.symm ▸ hle))
            simp [hj, places_unmoved hunmoved]
          · simp [hj]
    obtain ⟨c, hc⟩ := made job (List.mem_of_getElem? decorated)
    rw [hc, Chain.layers, List.getElem?_map] at layer
    obtain ⟨w, -, rfl⟩ := Option.map_eq_some_iff.1 layer
    rw [hnobody]
    exact Layer.kept_layer w

/-- A run that walks leaves the notes of all layers right. -/
theorem Orderly.kept_walked
    {r : RunId}
    {run run' : Run}
    {job job' : Job}
    {signs : List Sign}
    (orderly : e.Orderly)
    (entry : e.runs[r]? = some run)
    (decorated : e.jobs[run.job]? = some job)
    (walked : e.Walked e' r run job run' job' signs)
    {j : JobId}
    {other : Job}
    (later : e'.jobs[j]? = some other)
    {d : Nat}
    {l : Layer}
    (layer : other.layers[d]? = some l) :
    l.Kept (e'.places j d) := by
  have hfits := orderly.fits run (List.mem_of_getElem? entry) job decorated
  rw [walked.places entry walked.walk.job j d]
  rw [walked.jobs] at later
  by_cases hj : run.job = j
  · subst hj
    rw [List.getElem?_set_self (List.getElem?_eq_some_iff.1 decorated).1] at later
    obtain rfl := Option.some.inj later
    rw [if_pos rfl]
    have hd : d < job.layers.length := by
      have hlength := congrArg List.length (walked.walk.fits hfits).1
      simp only [Job.chain, List.length_map] at hlength
      rw [← hlength]
      exact (List.getElem?_eq_some_iff.1 layer).1
    have hold := List.getElem?_eq_getElem hd
    obtain ⟨l', hl', hcrossing⟩ := crossing_of_walk walked.walk hfits hold
    obtain rfl := Option.some.inj (layer.symm.trans hl')
    refine (orderly.kept _ job decorated d _ hold).crossing hcrossing ?_
    simp [places, entry]
  · rw [if_neg hj]
    rw [List.getElem?_set_ne hj] at later
    exact orderly.kept j other later d l layer

theorem Orderly.episode
    (orderly : e.Orderly)
    (episode : e.Episode e') :
    e'.Orderly := by
  have hrooted := episode.rooted orderly.rooted
  refine ⟨?_, ?_, ?_, ?_⟩
  · exact fun run hrun => (hrooted run hrun).imp_left fun h =>
      Nat.lt_of_lt_of_le h episode.length_jobs
  · have hold : ∀ run ∈ e'.runs, ∀ job, e.jobs[run.job]? = some job →
        job.chain.Fits run.stack := by
      refine episode.forall_runs orderly.fits ?_ ?_
      · intro run hunmoved job _
        rw [hunmoved.1]
        trivial
      · intro r run run' job job' signs hmem decorated hwalk other hother
        rw [hwalk.job, decorated] at hother
        obtain rfl := Option.some.inj hother
        exact (hwalk.fits (orderly.fits run hmem job decorated)).2
    intro run hrun job hjob
    rcases episode.chain_before orderly hjob with ⟨old, hdecorated, hchain⟩ | hle
    · rw [← hchain]
      exact hold run hrun old hdecorated
    · rw [((hrooted run hrun).resolve_left (Nat.not_lt.2 hle)).1]
      trivial
  · refine episode.forall_runs orderly.ended ?_ ?_
    · exact fun run hunmoved _ => hunmoved.1
    · exact fun r run run' job job' signs _ _ hwalk => hwalk.ended
  · intro j job hjob d l hl
    cases episode with
    | walk entry decorated walked => exact orderly.kept_walked entry decorated walked hjob hl
    | launch runs jobs unmoved => exact orderly.kept_launch runs jobs unmoved hjob hl
    | aside more runs jobs made => exact orderly.kept_aside runs jobs made hjob hl

/-- **Whatever happens leaves the notes of all layers right.** -/
theorem Orderly.befell
    (orderly : e.Orderly)
    (befell : e.Befell e') :
    e'.Orderly := by
  induction befell with
  | refl => exact orderly
  | tail _ befalls ih => exact ih.episode (befalls.episode ih.rooted)

theorem Befell.chain
    (befell : e.Befell e')
    (orderly : e.Orderly)
    {j : JobId}
    {job : Job}
    (decorated : e.jobs[j]? = some job) :
    ∃ job', e'.jobs[j]? = some job' ∧ job'.chain = job.chain := by
  induction befell with
  | refl => exact ⟨job, decorated, rfl⟩
  | tail before befalls ih =>
      obtain ⟨job', hjob', hchain⟩ := ih
      have horderly := orderly.befell before
      obtain ⟨job'', hjob'', hchain'⟩ := (befalls.episode horderly.rooted).chain horderly hjob'
      exact ⟨job'', hjob'', hchain'.trans hchain⟩

/-- **A job of which no run is in progress has its layers as they were made**, but for the
outcomes that they keep. -/
theorem Orderly.idle
    (orderly : e.Orderly)
    {j : JobId}
    {job : Job}
    (decorated : e.jobs[j]? = some job)
    (idle : ∀ run ∈ e.runs, run.job = j → run.isOver = true) :
    job.layers.map Layer.bare = job.chain.layers := by
  have hnobody : ∀ d, e.places j d = fun _ => .outside := by
    intro d
    funext r
    unfold places
    cases hrun : e.runs[r]? with
    | none => rfl
    | some run =>
        by_cases hj : run.job = j
        · have hmem := List.mem_of_getElem? hrun
          have hover := idle run hmem hj
          have hfree : run.control.door = .outside := by
            unfold Run.isOver at hover
            cases hcontrol : run.control <;> simp [hcontrol, Control.door] at hover ⊢
          have houtside : run.place d = .outside :=
            Run.place_of_free hfree (by simp [orderly.ended run hmem hover])
          simp [hj, houtside]
        · simp [hj]
  rw [Job.chain, Chain.layers, List.map_map]
  refine List.map_congr_left fun l hl => ?_
  obtain ⟨d, hd⟩ := List.mem_iff_getElem?.1 hl
  have hkept := orderly.kept j job decorated d l hd
  rw [hnobody d] at hkept
  exact hkept.idle

end Episodes

end Executor

end Timetable
