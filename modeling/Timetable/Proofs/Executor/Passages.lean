import Timetable.Proofs.Executor.Paths

/-!
# Passages

A layer that keeps runs apart is passed in a few ways: a run goes in, is refused, finds the lock
taken, joins the queue, or takes the lock on its way there, is let in from the queue, leaves, or
gives up.  Which of them it is, is read off the run before and after a step: where it has stood,
and where it stands.  What a layer has seen is the list of all passages in order.

In one step at most one run passes a layer, and the note of the layer changes as the passage
says.

Main results:

* a layer changes with the passages of the runs of its job, and with nothing else
  (Occurs.passes), so a machine that follows them is right about it (Follows.path);
* a run that is refused returns at once, and touches nothing (Occurs.refused);
* a job of which no run changes stays as it is (Occurs.aloof);
* a run on its way inwards goes in, comes nearer to a lock, or is turned away (Walk.inwards);
* what becomes of a run in a step (Occurs.alters, Occurs.unmoved), and what it carries along a path
  (Path.carries).
-/

namespace Timetable

/-- What a run does at a layer. -/
inductive Passage where
  /-- It goes in as it arrives. -/
  | enters
  /-- It is turned away as it arrives. -/
  | refused
  /-- It finds the lock taken as it arrives. -/
  | misses
  /-- It joins the queue of the lock that it has found taken. -/
  | queues
  /-- It goes in instead of joining the queue, since the lock is free by now. -/
  | takes
  /-- It is dropped on its way to the queue. -/
  | turnsBack
  /-- It goes in from the queue. -/
  | letIn
  /-- It leaves, in whatever way. -/
  | leaves
  /-- It is dropped while it waits. -/
  | givesUp
  deriving DecidableEq, Repr

namespace Passage

/-- Where a run stands before a passage. -/
def before : Passage → Place
  | enters => .outside
  | refused => .outside
  | misses => .outside
  | queues => .coming
  | takes => .coming
  | turnsBack => .coming
  | letIn => .waiting
  | leaves => .inside
  | givesUp => .waiting

/-- Where a run stands after a passage. -/
def after : Passage → Place
  | enters => .inside
  | refused => .outside
  | misses => .coming
  | queues => .waiting
  | takes => .inside
  | turnsBack => .outside
  | letIn => .inside
  | leaves => .outside
  | givesUp => .outside

end Passage

/-- What a run does on its way out. -/
def Control.goes : Control → Bool
  | leaving _ => true
  | unwinding _ => true
  | returned _ => true
  | unwound _ => true
  | dropped => true
  | _ => false

namespace Run

/-- The run is on its way to a depth. -/
def Coming
    (run : Run)
    (d : Nat) :
    Prop :=
  run.stack.length ≤ d ∧ ((∃ ctx, run.control = .entering ctx) ∨ run.control.door ≠ .outside)

/-- The run has come to the layer at a depth, and has not passed it yet. -/
def arrivesAt
    (run : Run)
    (d : Nat) :
    Bool :=
  match run.control with
  | .entering _ => run.stack.length == d
  | _ => false

/-- The passage of a run at the layer at a depth, given the run afterwards. -/
def passage?
    (run run' : Run)
    (d : Nat) :
    Option Passage :=
  match run.place d, run'.place d with
  | .outside, .inside => some .enters
  | .outside, .coming => some .misses
  | .coming, .waiting => some .queues
  | .coming, .inside => some .takes
  | .coming, .outside => some .turnsBack
  | .outside, .outside =>
      if run.arrivesAt d ∧ run'.control = .leaving .ok then some .refused else none
  | .waiting, .inside => some .letIn
  | .waiting, .outside => some .givesUp
  | .inside, .outside => some .leaves
  | _, _ => none

theorem passage?_eq_some
    {run run' : Run}
    {d : Nat}
    {p : Passage}
    (from' : run.place d = p.before)
    (onto : run'.place d = p.after)
    (through : p ≠ .refused) :
    run.passage? run' d = some p := by
  cases p with
  | refused => exact absurd rfl through
  | enters | misses | queues | takes | turnsBack | letIn | leaves | givesUp =>
      simp [passage?, from', onto, Passage.before, Passage.after]

/-- A passage begins where the run has stood, and ends where it stands. -/
theorem place_of_passage?
    {run run' : Run}
    {d : Nat}
    {p : Passage}
    (h : run.passage? run' d = some p) :
    run.place d = p.before ∧ run'.place d = p.after ∧
      (p = .refused → run.arrivesAt d = true ∧ run'.control = .leaving .ok) := by
  have hthrough : ∀ q : Passage, q ≠ .refused → some q = some p → run.place d = q.before →
      run'.place d = q.after → run.place d = p.before ∧ run'.place d = p.after ∧
        (p = .refused → run.arrivesAt d = true ∧ run'.control = .leaving .ok) := by
    rintro q hq hsame hfrom honto
    cases hsame
    exact ⟨hfrom, honto, fun h => absurd h hq⟩
  unfold passage? at h
  split at h <;> rename_i hfrom honto
  · exact hthrough .enters (by simp) h hfrom honto
  · exact hthrough .misses (by simp) h hfrom honto
  · exact hthrough .queues (by simp) h hfrom honto
  · exact hthrough .takes (by simp) h hfrom honto
  · exact hthrough .turnsBack (by simp) h hfrom honto
  · obtain ⟨hrefused, hp⟩ := Option.ite_none_right_eq_some.1 h
    cases hp
    exact ⟨hfrom, honto, fun _ => hrefused⟩
  · exact hthrough .letIn (by simp) h hfrom honto
  · exact hthrough .givesUp (by simp) h hfrom honto
  · exact hthrough .leaves (by simp) h hfrom honto
  · cases h

/-- A run that wants a lock stands at the layer to which it has come. -/
theorem place_eq_iff_door
    {run : Run}
    {d : Nat}
    {p : Place}
    (atDoor : p ≠ .outside ∧ p ≠ .inside) :
    run.place d = p ↔ run.control.door = p ∧ run.stack.length = d := by
  constructor
  · rintro rfl
    unfold place at atDoor ⊢
    split at atDoor
    · exact absurd rfl atDoor.2
    · split at atDoor
      · simp [*]
      · exact absurd rfl atDoor.1
  · rintro ⟨rfl, rfl⟩
    exact run.place_self

/-- A run that stays where it is does not pass, unless it is refused. -/
theorem passage?_of_place_eq
    {run run' : Run}
    {d : Nat}
    (same : run'.place d = run.place d) :
    run.passage? run' d = none ∨
      run.passage? run' d = some .refused ∧ run.place d = .outside ∧
        run.arrivesAt d = true ∧ run'.control = .leaving .ok := by
  unfold passage?
  rw [same]
  cases hplace : run.place d with
  | outside =>
      by_cases hrefused : run.arrivesAt d = true ∧ run'.control = .leaving .ok
      · right
        simp [hrefused]
      · left
        simp [hrefused]
  | coming | waiting | inside => exact Or.inl rfl

theorem passage?_self
    (run : Run)
    (d : Nat) :
    run.passage? run d = none := by
  rcases passage?_of_place_eq (Eq.refl (run.place d)) with h | ⟨-, -, harrives, hleaves⟩
  · exact h
  · simp [arrivesAt, hleaves] at harrives

end Run

/-- What a passage makes of a layer that keeps a note. -/
inductive Passing
    (r : RunId) :
    Layer → Passage → Layer → Prop
  | enterSkip : Passing r (.skip false) .enters (.skip true)
  | refused : Passing r (.skip true) .refused (.skip true)
  | leaveSkip (running : Bool) : Passing r (.skip running) .leaves (.skip false)
  | enterDelay
      {lock : Lock}
      (free : lock.holder = none) :
      Passing r (.delay lock) .enters (.delay { lock with holder := some r })
  | miss
      {lock : Lock}
      {holder : RunId}
      (held : lock.holder = some holder) :
      Passing r (.delay lock) .misses (.delay lock)
  | join
      {lock : Lock}
      {holder : RunId}
      (held : lock.holder = some holder) :
      Passing r (.delay lock) .queues (.delay (lock.join r))
  | take
      {lock : Lock}
      (free : lock.holder = none) :
      Passing r (.delay lock) .takes (.delay { lock with holder := some r })
  | turnBack (lock : Lock) : Passing r (.delay lock) .turnsBack (.delay lock)
  | letIn
      {lock : Lock}
      (held : lock.holder = some r) :
      Passing r (.delay lock) .letIn (.delay lock)
  | leaveDelay (lock : Lock) : Passing r (.delay lock) .leaves (.delay lock.release)
  | giveUp (lock : Lock) : Passing r (.delay lock) .givesUp (.delay (lock.leave r))

/-- The wrapper keeps runs apart. -/
def Wrapper.Parts (w : Wrapper) : Prop :=
  w = .skip ∨ w = .delay

theorem Layer.eq_of_bare
    {l l' : Layer}
    (parts : l.wrapper.Parts)
    (same : l'.bare = l.bare) :
    l' = l := by
  cases l with
  | skip => cases l' <;> simp_all [Layer.bare]
  | delay => cases l' <;> simp_all [Layer.bare]
  | recover | track | retry | trace | tag => simp [Wrapper.Parts, Layer.wrapper] at parts

/-- A run crosses a layer that keeps a note by a passage, or stays where it is. -/
theorem Crossing.passing
    {r : RunId}
    {l l' : Layer}
    {p q : Place}
    (crossing : Crossing r l l' p q)
    (parts : l.wrapper.Parts) :
    (q = p ∧ l' = l) ∨
      ∃ a : Passage, a ≠ .refused ∧ p = a.before ∧ q = a.after ∧ Passing r l a l' := by
  cases crossing with
  | stay same => exact Or.inl ⟨rfl, Layer.eq_of_bare parts same⟩
  | enterSkip => exact Or.inr ⟨.enters, by simp, rfl, rfl, .enterSkip⟩
  | leaveSkip running => exact Or.inr ⟨.leaves, by simp, rfl, rfl, .leaveSkip running⟩
  | enterDelay free => exact Or.inr ⟨.enters, by simp, rfl, rfl, .enterDelay free⟩
  | miss held => exact Or.inr ⟨.misses, by simp, rfl, rfl, .miss held⟩
  | join held => exact Or.inr ⟨.queues, by simp, rfl, rfl, .join held⟩
  | take free => exact Or.inr ⟨.takes, by simp, rfl, rfl, .take free⟩
  | letIn held => exact Or.inr ⟨.letIn, by simp, rfl, rfl, .letIn held⟩
  | leaveDelay lock => exact Or.inr ⟨.leaves, by simp, rfl, rfl, .leaveDelay lock⟩
  | free same noSkip noDelay => exact absurd parts (not_or.2 ⟨noSkip, noDelay⟩)

/-- A run that is dropped gives up its place by a passage, or has stood outside. -/
theorem Layer.passing_givenUp
    {l : Layer}
    {p : Place}
    (parts : l.wrapper.Parts)
    (atDoor : p = .coming ∨ p = .waiting → l.wrapper = .delay)
    (r : RunId) :
    (p = .outside ∧ l.givenUp r p = l) ∨
      ∃ a : Passage, a ≠ .refused ∧ p = a.before ∧ .outside = a.after ∧
        Passing r l a (l.givenUp r p) := by
  cases p with
  | outside => exact Or.inl ⟨rfl, by cases l <;> rfl⟩
  | coming =>
      have hdelay := atDoor (Or.inl rfl)
      cases l with
      | delay lock => exact Or.inr ⟨.turnsBack, by simp, rfl, rfl, .turnBack lock⟩
      | recover | track | retry | skip | trace | tag => simp [Layer.wrapper] at hdelay
  | waiting =>
      have hdelay := atDoor (Or.inr rfl)
      cases l with
      | delay lock => exact Or.inr ⟨.givesUp, by simp, rfl, rfl, .giveUp lock⟩
      | recover | track | retry | skip | trace | tag => simp [Layer.wrapper] at hdelay
  | inside =>
      cases l with
      | skip running => exact Or.inr ⟨.leaves, by simp, rfl, rfl, .leaveSkip running⟩
      | delay lock => exact Or.inr ⟨.leaves, by simp, rfl, rfl, .leaveDelay lock⟩
      | recover | track | retry | trace | tag => simp [Wrapper.Parts, Layer.wrapper] at parts

namespace Executor

variable {e e' : Executor} {r : RunId} {run run' : Run} {job job' : Job} {signs : List Sign}

/-- The passage of a run at the layer at a depth of a job, given the state afterwards. -/
def passage?
    (e : Executor)
    (j : JobId)
    (d : Nat)
    (e' : Executor)
    (r : RunId) :
    Option Passage :=
  match e.runs[r]?, e'.runs[r]? with
  | some run, some run' => if run.job = j then run.passage? run' d else none
  | _, _ => none

/-- All passages at a layer in one step. -/
def passages
    (e : Executor)
    (j : JobId)
    (d : Nat)
    (e' : Executor) :
    List (RunId × Passage) :=
  (List.range e.runs.length).filterMap fun r => (e.passage? j d e' r).map fun p => (r, p)

/-- All passages at a layer on a path, in order. -/
def history
    (j : JobId)
    (d : Nat)
    (l : List (Executor × Executor)) :
    List (RunId × Passage) :=
  l.flatMap fun s => s.1.passages j d s.2

theorem history_concat
    (j : JobId)
    (d : Nat)
    (l : List (Executor × Executor))
    (s : Executor × Executor) :
    history j d (l ++ [s]) = history j d l ++ s.1.passages j d s.2 := by
  simp [history]

theorem passage?_of_entry_eq
    (same : e'.runs[r]? = e.runs[r]?)
    (j : JobId)
    (d : Nat) :
    e.passage? j d e' r = none := by
  unfold passage?
  rw [same]
  cases e.runs[r]? with
  | none => rfl
  | some run => by_cases hj : run.job = j <;> simp [hj, run.passage?_self]

/-- A run that passes is one of the job. -/
theorem exists_of_mem_passages
    {j : JobId}
    {d : Nat}
    {p : Passage}
    (h : (r, p) ∈ e.passages j d e') :
    ∃ run run', e.runs[r]? = some run ∧ e'.runs[r]? = some run' ∧ run.job = j ∧
      run.passage? run' d = some p := by
  obtain ⟨k, -, hk⟩ := List.mem_filterMap.1 h
  obtain ⟨p', hp, hpair⟩ := Option.map_eq_some_iff.1 hk
  cases hpair
  unfold passage? at hp
  split at hp
  · rename_i run run' hrun hrun'
    obtain ⟨hj, hp⟩ := Option.ite_none_right_eq_some.1 hp
    exact ⟨run, run', hrun, hrun', hj, hp⟩
  · cases hp

theorem filterMap_range_of_single
    {α : Type}
    {f : Nat → Option α}
    {n k : Nat}
    (others : ∀ i, i ≠ k → f i = none)
    (h : k < n) :
    (List.range n).filterMap f = (f k).toList := by
  induction n with
  | zero => exact absurd h (Nat.not_lt_zero k)
  | succ n ih =>
      rw [List.range_succ, List.filterMap_append]
      by_cases hk : k = n
      · subst hk
        have hnone : (List.range k).filterMap f = [] :=
          List.filterMap_eq_nil_iff.2 fun i hi => others i (List.mem_range.1 hi).ne
        rw [hnone, List.nil_append]
        cases hf : f k <;> simp [hf]
      · rw [ih (by omega)]
        simp [others n (Ne.symm hk)]

/-- No run passes a layer while all runs stay as they are. -/
theorem passages_eq_nil
    (same : ∀ k < e.runs.length, e'.runs[k]? = e.runs[k]?)
    (j : JobId)
    (d : Nat) :
    e.passages j d e' = [] := by
  refine List.filterMap_eq_nil_iff.2 fun k hk => ?_
  rw [passage?_of_entry_eq (same k (List.mem_range.1 hk)), Option.map_none]

/-- Where one run changes, it is the only one that may pass a layer. -/
theorem passages_of_set
    (entry : e.runs[r]? = some run)
    (runs : e'.runs = e.runs.set r run')
    (j : JobId)
    (d : Nat) :
    e.passages j d e' =
      ((if run.job = j then run.passage? run' d else none).map fun p => (r, p)).toList := by
  have hlt : r < e.runs.length := (List.getElem?_eq_some_iff.1 entry).1
  rw [passages, filterMap_range_of_single (k := r) ?_ hlt]
  · unfold passage?
    rw [runs, entry, List.getElem?_set_self hlt]
  · intro k hk
    rw [passage?_of_entry_eq (by rw [runs, List.getElem?_set_ne (Ne.symm hk)]), Option.map_none]

/-- A run is refused by a layer whose flag is set, and that is all that happens. -/
theorem Walk.refused
    (h : e.Walk r run job run' job' signs)
    {d : Nat}
    (arrives : run.arrivesAt d = true)
    (returns : run'.control = .leaving .ok) :
    job.layers[d]? = some (.skip true) ∧ run' = { run with control := .leaving .ok } ∧
      job' = job ∧ signs = [.figure (.skips job.task.key)] := by
  have hentering : ∀ {c}, run.control = c → (∀ ctx, c ≠ .entering ctx) → False := by
    intro c hcontrol hc
    unfold Run.arrivesAt at arrives
    split at arrives
    · rename_i ctx hctx
      exact hc ctx (hcontrol.symm.trans hctx)
    · cases arrives
  cases h with
  | skip control layer =>
      have hd : run.stack.length = d := by simpa [Run.arrivesAt, control] using arrives
      exact ⟨hd ▸ layer, rfl, rfl, rfl⟩
  | enter | miss => simp at returns
  | call control =>
      cases hsleep : (job.task.script job.task.calls e.calls.length).sleep <;>
        simp [callControl, hsleep] at returns
  | join control | take control | letIn control | wake control | proceed control
  | answer control | burst control | bar control | rescue control | overflow control
  | settle control | pause control | again control | stop control | pass control
  | unwind control | finish control | escape control =>
      exact (hentering control (by simp)).elim

/-- A run that walks is another one afterwards. -/
theorem Walk.moved (h : e.Walk r run job run' job' signs) : run' ≠ run := by
  have hcontrol : run'.control ≠ run.control → run' ≠ run :=
    fun h hsame => h (congrArg Run.control hsame)
  have hstack : run'.stack.length ≠ run.stack.length → run' ≠ run :=
    fun h hsame => h (congrArg (fun run => run.stack.length) hsame)
  cases h with
  | enter | take | letIn => exact hstack (by simp)
  | bar control stack | rescue control stack | overflow control stack | settle control stack
  | stop control stack | pass control stack | unwind control stack =>
      exact hstack (by simp [stack])
  | call control =>
      refine hcontrol ?_
      cases hsleep : (job.task.script job.task.calls e.calls.length).sleep <;>
        simp [callControl, hsleep, control]
  | skip control | miss control | join control | wake control | proceed control | answer control
  | burst control | pause control | again control | finish control | escape control =>
      exact hcontrol (by simp [control])

/-- A run that wants a lock has come to a layer that holds runs back. -/
def Waits (e : Executor) : Prop :=
  ∀ run ∈ e.runs, run.control.door ≠ .outside →
    ∃ job, e.jobs[run.job]? = some job ∧ job.chain[run.stack.length]? = some .delay

theorem Waits.occurs
    (waits : e.Waits)
    (orderly : e.Orderly)
    (occurs : e.Occurs e') :
    e'.Waits := by
  suffices hbefore : ∀ run ∈ e'.runs, run.control.door ≠ .outside →
      ∃ job, e.jobs[run.job]? = some job ∧ job.chain[run.stack.length]? = some .delay by
    intro run hrun hdoor
    obtain ⟨job, hjob, hdelay⟩ := hbefore run hrun hdoor
    obtain ⟨job', hjob', hchain⟩ := occurs.chain orderly hjob
    exact ⟨job', hjob', by rw [hchain]; exact hdelay⟩
  rcases occurs.episode_or_dropped orderly.rooted with
    hepisode | ⟨r, run, job, entry, decorated, hdropped⟩
  · refine hepisode.forall_runs waits ?_ ?_
    · rintro run ⟨-, ctx, hcontrol⟩ hdoor
      exact absurd (congrArg Control.door hcontrol) hdoor
    · intro r run run' job job' signs _ decorated hwalk hdoor
      cases hwalk with
      | miss control layer held | join control layer held =>
          exact ⟨job, decorated, Job.chain_getElem? layer⟩
      | call => exact absurd (e.door_callControl _ _) hdoor
      | enter | skip | take | letIn | wake | proceed | answer | burst | bar | rescue | overflow
      | settle | pause | again | stop | pass | unwind | finish | escape => exact absurd rfl hdoor
  · intro other hother hdoor
    rw [hdropped.runs] at hother
    rcases List.mem_or_eq_of_mem_set hother with hold | rfl
    · exact waits other hold hdoor
    · exact absurd rfl hdoor

/-- What occurs changes one run, and with it its job, or spares the runs and jobs that there are. -/
inductive Touch (e e' : Executor) : Prop
  | changes
      {r : RunId}
      {run run' : Run}
      {job job' : Job}
      (entry : e.runs[r]? = some run)
      (decorated : e.jobs[run.job]? = some job)
      (changed : run' ≠ run)
      (runs : e'.runs = e.runs.set r run')
      (jobs : e'.jobs = e.jobs.set run.job job')
      (places : ∀ j d, e'.places j d =
        if run.job = j then Function.update (e.places j d) r (run'.place d) else e.places j d)
      (how : (∃ signs, e.Walked e' r run job run' job' signs) ∨
        run' = { run with stack := [], control := .dropped } ∧ job' = job.dropped r run ∧
          e.Dropped e' r run job)
  | spares
      (runs : ∀ (r : RunId) (run : Run), e.runs[r]? = some run → e'.runs[r]? = some run)
      (jobs : ∀ (j : JobId) (job : Job), e.jobs[j]? = some job → e'.jobs[j]? = some job)
      (places : e'.places = e.places)

theorem Occurs.touch
    (occurs : e.Occurs e')
    (rooted : e.Rooted) :
    e.Touch e' := by
  have happended : ∀ {α : Type} {l more : List α} {i : Nat} {a : α}, l[i]? = some a →
      (l ++ more)[i]? = some a := by
    intro α l more i a h
    rw [List.getElem?_append_left (List.getElem?_eq_some_iff.1 h).1, h]
  rcases occurs.episode_or_dropped rooted with
    hepisode | ⟨r, run, job, entry, decorated, hdropped⟩
  · cases hepisode with
    | walk entry decorated walked =>
        exact .changes entry decorated walked.walk.moved walked.runs walked.jobs
          (walked.places entry walked.walk.job) (Or.inl ⟨_, walked⟩)
    | launch runs jobs unmoved =>
        refine .spares (fun r run h => ?_) (fun j job h => jobs ▸ h) (places_launch runs unmoved)
        rw [runs]
        exact happended h
    | aside more runs jobs =>
        refine .spares (fun r run h => runs ▸ h) (fun j job h => ?_) ?_
        · rw [jobs]
          exact happended h
        · unfold Executor.places
          rw [runs]
  · refine .changes entry decorated ?_ hdropped.runs hdropped.jobs (fun j d => ?_)
      (Or.inr ⟨rfl, rfl, hdropped⟩)
    · intro hsame
      have hlasts := hdropped.lasts
      rw [← hsame] at hlasts
      cases hlasts
    · rw [hdropped.places entry j d, Run.place_of_free rfl (Nat.zero_le _)]

/-- What happens at a layer in one step: nobody passes it, or one run does. -/
inductive Passes
    (e : Executor)
    (j : JobId)
    (d : Nat)
    (l' : Layer)
    (e' : Executor) :
    Prop
  | nobody
      (passages : e.passages j d e' = [])
      (places : e'.places j d = e.places j d)
      (layer : ∀ job, e.jobs[j]? = some job → job.layers[d]? = some l')
  | somebody
      {r : RunId}
      {p : Passage}
      {job : Job}
      {l : Layer}
      (passages : e.passages j d e' = [(r, p)])
      (from' : e.places j d r = p.before)
      (places : e'.places j d = Function.update (e.places j d) r p.after)
      (decorated : e.jobs[j]? = some job)
      (layer : job.layers[d]? = some l)
      (passing : Passing r l p l')

section Steps

variable {j : JobId} {d : Nat} {l' : Layer}

/-- A run of the job changes, and with it the layer. -/
theorem passes_of_set
    (entry : e.runs[r]? = some run)
    (runs : e'.runs = e.runs.set r run')
    (decorated : e.jobs[run.job]? = some job)
    (places : e'.places run.job d = Function.update (e.places run.job d) r (run'.place d))
    {l : Layer}
    (layer : job.layers[d]? = some l)
    (passing : (run'.place d = run.place d ∧ l' = l ∧
          (run.passage? run' d = some .refused → l = .skip true)) ∨
      ∃ a : Passage, a ≠ .refused ∧ run.place d = a.before ∧ run'.place d = a.after ∧
        Passing r l a l') :
    e.Passes run.job d l' e' := by
  have hplace : e.places run.job d r = run.place d := by simp [Executor.places, entry]
  have hpassages := passages_of_set entry runs run.job d
  rw [if_pos rfl] at hpassages
  rcases passing with ⟨hsame, rfl, hrefused⟩ | ⟨a, hthrough, hfrom, hto, hpassing⟩
  · rcases Run.passage?_of_place_eq hsame with hnone | ⟨hsome, houtside, -, -⟩
    · refine .nobody ?_ ?_ ?_
      · rw [hpassages, hnone]
        rfl
      · rw [places, hsame, ← hplace, Function.update_eq_self]
      · intro own hown
        obtain rfl := Option.some.inj (decorated.symm.trans hown)
        exact layer
    · obtain rfl := hrefused hsome
      refine .somebody (p := .refused) ?_ (hplace.trans houtside) ?_ decorated layer .refused
      · rw [hpassages, hsome]
        rfl
      · rw [places, hsame, houtside]
        rfl
  · refine .somebody ?_ (hplace.trans hfrom) ?_ decorated layer hpassing
    · rw [hpassages, Run.passage?_eq_some hfrom hto hthrough]
      rfl
    · rw [places, hto]

/-- A run of another job changes, and the layer does not. -/
theorem passes_of_other
    {changed : Job}
    (entry : e.runs[r]? = some run)
    (runs : e'.runs = e.runs.set r run')
    (jobs : e'.jobs = e.jobs.set run.job changed)
    (other : run.job ≠ j)
    (places : e'.places j d = e.places j d)
    (later : ∀ job', e'.jobs[j]? = some job' → job'.layers[d]? = some l') :
    e.Passes j d l' e' := by
  refine .nobody ?_ places fun job hjob => later job ?_
  · rw [passages_of_set entry runs, if_neg other]
    rfl
  · rw [jobs, List.getElem?_set_ne other, hjob]

/-- A run of the job walks. -/
theorem Walked.passes
    (walked : e.Walked e' r run job run' job' signs)
    (entry : e.runs[r]? = some run)
    (decorated : e.jobs[run.job]? = some job)
    (fits : job.chain.Fits run.stack)
    (layer' : job'.layers[d]? = some l')
    (parts : l'.wrapper.Parts) :
    e.Passes run.job d l' e' := by
  have hw := Job.chain_getElem? layer'
  rw [(walked.walk.fits fits).1] at hw
  obtain ⟨l, hl, hsame⟩ := Job.exists_layer hw
  obtain ⟨l'', hl'', hcrossing⟩ := crossing_of_walk walked.walk fits hl
  obtain rfl := Option.some.inj (layer'.symm.trans hl'')
  have hplaces := walked.places entry walked.walk.job run.job d
  rw [if_pos rfl] at hplaces
  refine passes_of_set entry walked.runs decorated hplaces hl ?_
  refine (hcrossing.passing (hsame ▸ parts)).imp
    (fun ⟨hstays, hlayer⟩ => ⟨hstays, hlayer, fun hrefused => ?_⟩) id
  rcases Run.passage?_of_place_eq hstays with hnone | ⟨-, -, harrives, hreturns⟩
  · rw [hnone] at hrefused
    cases hrefused
  · obtain ⟨hflag, -⟩ := walked.walk.refused harrives hreturns
    exact Option.some.inj (hl.symm.trans hflag)

/-- A run of the job is dropped. -/
theorem Dropped.passes
    (dropped : e.Dropped e' r run job)
    (entry : e.runs[r]? = some run)
    (decorated : e.jobs[run.job]? = some job)
    (fits : job.chain.Fits run.stack)
    (waits : e.Waits)
    (layer' : (job.dropped r run).layers[d]? = some l')
    (parts : l'.wrapper.Parts) :
    e.Passes run.job d l' e' := by
  have houtside : Run.place { run with stack := [], control := .dropped } d = .outside :=
    Run.place_of_free rfl (Nat.zero_le _)
  have hplaces := dropped.places entry run.job d
  rw [if_pos rfl, ← houtside] at hplaces
  rw [Job.layers_dropped fits, Option.map_eq_some_iff] at layer'
  obtain ⟨l, hl, rfl⟩ := layer'
  rw [Layer.wrapper_givenUp] at parts
  have hdoor : run.place d = .coming ∨ run.place d = .waiting → l.wrapper = .delay := by
    intro hplace
    have hatDoor : run.place d ≠ .outside ∧ run.place d ≠ .inside := by
      rcases hplace with h | h <;> simp [h]
    obtain ⟨hdoor, rfl⟩ := (Run.place_eq_iff_door hatDoor).1 rfl
    obtain ⟨own, hown, hdelay⟩ := waits run (List.mem_of_getElem? entry) (hdoor ▸ hatDoor.1)
    obtain rfl := Option.some.inj (decorated.symm.trans hown)
    rw [Job.chain_getElem? hl] at hdelay
    exact Option.some.inj hdelay
  refine passes_of_set entry dropped.runs decorated hplaces hl ?_
  rw [houtside]
  refine (Layer.passing_givenUp parts hdoor r).imp ?_ id
  rintro ⟨hsame, hlayer⟩
  refine ⟨hsame.symm, hlayer, fun hrefused => ?_⟩
  rcases Run.passage?_of_place_eq (houtside.trans hsame.symm) with hnone | ⟨-, -, -, hreturns⟩
  · rw [hnone] at hrefused
    cases hrefused
  · cases hreturns

/-- **A layer that keeps a note changes with the passages of the runs of its job, one at a
time, and with nothing else.** -/
theorem Occurs.passes
    (occurs : e.Occurs e')
    (orderly : e.Orderly)
    (waits : e.Waits)
    (later : ∀ job', e'.jobs[j]? = some job' → job'.layers[d]? = some l')
    (parts : l'.wrapper.Parts) :
    e.Passes j d l' e' := by
  cases occurs.touch orderly.rooted with
  | @changes r run run' own own' entry decorated changed runs jobs places how =>
      have hfits := orderly.fits run (List.mem_of_getElem? entry) own decorated
      have hlt := (List.getElem?_eq_some_iff.1 decorated).1
      by_cases hj : run.job = j
      · subst hj
        have hlayer := later own' (by rw [jobs, List.getElem?_set_self hlt])
        rcases how with ⟨signs, walked⟩ | ⟨-, rfl, dropped⟩
        · exact walked.passes entry decorated hfits hlayer parts
        · exact dropped.passes entry decorated hfits waits hlayer parts
      · exact passes_of_other entry runs jobs hj (by rw [places, if_neg hj]) later
  | spares runs jobs places =>
      refine .nobody (passages_eq_nil ?_ j d) (by rw [places]) fun job hjob => later job ?_
      · intro k hk
        have hrun := List.getElem?_eq_getElem hk
        rw [runs k _ hrun, hrun]
      · exact jobs j job hjob

/-- A run that is another one after a step has walked, or has been dropped. -/
theorem Occurs.changed
    (occurs : e.Occurs e')
    (orderly : e.Orderly)
    (entry : e.runs[r]? = some run)
    (later : e'.runs[r]? = some run')
    (changed : run' ≠ run) :
    ∃ job, e.jobs[run.job]? = some job ∧
      ((∃ job' signs, e.Walked e' r run job run' job' signs) ∨
        run' = { run with stack := [], control := .dropped }) := by
  have hlt : r < e.runs.length := (List.getElem?_eq_some_iff.1 entry).1
  cases occurs.touch orderly.rooted with
  | @changes k moved moved' own own' hmoved decorated _ runs _ _ how =>
      rw [runs] at later
      by_cases hk : k = r
      · subst hk
        rw [List.getElem?_set_self hlt] at later
        obtain rfl := Option.some.inj (entry.symm.trans hmoved)
        obtain rfl := Option.some.inj later
        refine ⟨own, decorated, how.imp ?_ And.left⟩
        rintro ⟨signs, walked⟩
        exact ⟨own', signs, walked⟩
      · rw [List.getElem?_set_ne hk, entry] at later
        exact absurd (Option.some.inj later).symm changed
  | spares runs =>
      rw [runs r run entry] at later
      exact absurd (Option.some.inj later).symm changed

/-- **A run that is refused returns at once and touches nothing**; one more run of its key has
been dropped. -/
theorem Occurs.refused
    (occurs : e.Occurs e')
    (orderly : e.Orderly)
    (refused : (r, .refused) ∈ e.passages j d e') :
    ∃ run, e.runs[r]? = some run ∧ e'.runs = e.runs.set r { run with control := .leaving .ok } ∧
      e'.jobs = e.jobs ∧
      ∀ s, s ≠ .figure .inFlightRuns →
        e'.tally s = e.tally s + [Sign.figure (.skips (e.jobKey j))].count s := by
  obtain ⟨run, run', hrun, hrun', rfl, hp⟩ := exists_of_mem_passages refused
  obtain ⟨harrives, hreturns⟩ := (Run.place_of_passage? hp).2.2 rfl
  have hchanged : run' ≠ run := by
    rintro rfl
    simp [Run.arrivesAt, hreturns] at harrives
  obtain ⟨own, decorated, ⟨own', signs, walked⟩ | rfl⟩ :=
    occurs.changed orderly hrun hrun' hchanged
  · obtain ⟨-, rfl, rfl, rfl⟩ := walked.walk.refused harrives hreturns
    have hkey : e.jobKey run.job = own'.task.key := by simp [jobKey, decorated]
    refine ⟨run, hrun, walked.runs, ?_, fun s hs => ?_⟩
    · obtain ⟨hlt, rfl⟩ := List.getElem?_eq_some_iff.1 decorated
      rw [walked.jobs, List.set_getElem_self hlt]
    · rw [walked.tally s hs, hkey]
  · cases hreturns

/-- **A job of which no run changes stays as it is**, whatever occurs to others. -/
theorem Occurs.aloof
    (occurs : e.Occurs e')
    (orderly : e.Orderly)
    (decorated : e.jobs[j]? = some job)
    (still : ∀ (r : RunId) (run : Run), e.runs[r]? = some run → run.job = j →
      e'.runs[r]? = some run) :
    e'.jobs[j]? = some job := by
  cases occurs.touch orderly.rooted with
  | @changes r run run' own own' entry _ changed runs jobs =>
      rw [jobs]
      by_cases hj : run.job = j
      · have hsame := still r run entry hj
        rw [runs, List.getElem?_set_self (List.getElem?_eq_some_iff.1 entry).1] at hsame
        exact absurd (Option.some.inj hsame) changed
      · rw [List.getElem?_set_ne hj, decorated]
  | spares _ jobs => exact jobs j job decorated

end Steps

/-- A run that arrives at a layer has one move. -/
theorem moves_of_arrival
    {ctx : Context}
    {l : Layer}
    (entry : e.runs[r]? = some run)
    (decorated : e.jobs[run.job]? = some job)
    (control : run.control = .entering ctx)
    (layer : job.layers[run.stack.length]? = some l) :
    ∃ e' run' job' signs, e.moves (.run r) = [e'] ∧ e.Walked e' r run job run' job' signs := by
  obtain ⟨run', job', signs, hwalked⟩ := walked_enterLayer r decorated control layer
  exact ⟨_, run', job', signs, by simp [moves, runMoves, entry, control, decorated, layer], hwalked⟩

/-- A run that arrives at a layer goes in, is refused, or finds the lock taken. -/
theorem Walk.at_layer
    (h : e.Walk r run job run' job' signs)
    {ctx : Context}
    {l : Layer}
    (control : run.control = .entering ctx)
    (layer : job.layers[run.stack.length]? = some l) :
    (∃ f l' ctx', e.Opens r ctx l f l' ctx' ∧ signs = [] ∧
        run' = { run with stack := f :: run.stack, control := .entering ctx' }) ∨
      (l = .skip true ∧ run' = { run with control := .leaving .ok }) ∨
      ∃ lock holder, l = .delay lock ∧ lock.holder = some holder ∧
        run' = { run with control := .joining ctx } := by
  have hcontrol : ∀ {c}, run.control = c → c = .entering ctx := fun h => h.symm.trans control
  have hlayer : ∀ {l'}, job.layers[run.stack.length]? = some l' → l' = l :=
    fun h => Option.some.inj (h.symm.trans layer)
  cases h with
  | enter control' layer' opens =>
      cases hcontrol control'
      obtain rfl := hlayer layer'
      exact Or.inl ⟨_, _, _, opens, rfl, rfl⟩
  | skip control' layer' => exact Or.inr (Or.inl ⟨(hlayer layer').symm, rfl⟩)
  | miss control' layer' held =>
      cases hcontrol control'
      exact Or.inr (Or.inr ⟨_, _, (hlayer layer').symm, held, rfl⟩)
  | call control' innermost =>
      rw [layer] at innermost
      cases innermost
  | join control' | take control' | letIn control' | wake control' | proceed control'
  | answer control' | burst control' | bar control' | rescue control' | overflow control'
  | settle control' | pause control' | again control' | stop control' | pass control'
  | unwind control' | finish control' | escape control' => cases hcontrol control'

/-- A run that arrives stands outside. -/
theorem place_of_arrival
    {ctx : Context}
    (control : run.control = .entering ctx) :
    run.place run.stack.length = .outside :=
  Run.place_of_free (by rw [control]; rfl) le_rfl

/-- The notes of all layers are right, and whoever waits, waits where runs are held back. -/
theorem Path.orderly
    {e₀ : Executor}
    {l : List (Executor × Executor)}
    (runs₀ : e₀.runs = [])
    (jobs₀ : e₀.jobs = [])
    (path : Path Occurs e₀ l e) :
    e.Orderly ∧ e.Waits := by
  induction path with
  | start => exact ⟨orderly_of_blank runs₀ jobs₀, by simp [Waits, runs₀]⟩
  | next _ last ih => exact ⟨ih.1.occurs last, ih.2.occurs ih.1 last⟩

/-- What becomes of a run in a step: it stays as it is, is dropped, or walks. -/
inductive Becomes
    (e : Executor)
    (r : RunId)
    (run : Run)
    (job : Job) :
    Run → Prop
  | stays : Becomes e r run job run
  | drops : Becomes e r run job { run with stack := [], control := .dropped }
  | walks
      {run' : Run}
      {job' : Job}
      {signs : List Sign}
      (walk : e.Walk r run job run' job' signs) :
      Becomes e r run job run'

theorem Becomes.job_eq
    (h : e.Becomes r run job run') :
    run'.job = run.job := by
  cases h with
  | stays | drops => rfl
  | walks walk => exact walk.job

/-- **A run on its way inwards goes in, comes nearer to a lock, or is turned away.**  It waits only
where runs are held back. -/
theorem Walk.inwards
    (h : e.Walk r run job run' job' signs)
    {d : Nat}
    (coming : run.Coming d)
    (innerly : d < job.layers.length) :
    (∃ f ctx, run' = { run with stack := f :: run.stack, control := .entering ctx } ∧
        (run.control.door ≠ .outside →
          ∃ lock, job.layers[run.stack.length]? = some (.delay lock))) ∨
      (∃ c lock, run' = { run with control := c } ∧ c.door ≠ .outside ∧
        job.layers[run.stack.length]? = some (.delay lock)) ∨
      run' = { run with control := .leaving .ok } ∧ (∃ ctx, run.control = .entering ctx) ∧
        job.layers[run.stack.length]? = some (.skip true) := by
  obtain ⟨hle, hway⟩ := coming
  have hgone : ∀ {b : Control}, run.control = b → (∀ ctx, b ≠ .entering ctx) →
      b.door = .outside → False := by
    rintro b rfl hentering hdoor
    rcases hway with ⟨ctx, hctx⟩ | hwants
    · exact hentering ctx hctx
    · exact hwants hdoor
  cases h with
  | enter control =>
      exact Or.inl ⟨_, _, rfl, fun hdoor => absurd (congrArg Control.door control) hdoor⟩
  | take _ layer | letIn _ layer => exact Or.inl ⟨_, _, rfl, fun _ => ⟨_, layer⟩⟩
  | miss _ layer | join _ layer =>
      exact Or.inr (Or.inl ⟨_, _, rfl, by simp [Control.door], layer⟩)
  | skip control layer => exact Or.inr (Or.inr ⟨rfl, ⟨_, control⟩, layer⟩)
  | call control innermost =>
      rw [List.getElem?_eq_none_iff] at innermost
      omega
  | wake control | proceed control | answer control | burst control | bar control | rescue control
  | overflow control | settle control | pause control | again control | stop control | pass control
  | unwind control | finish control | escape control =>
      exact (hgone control (by simp) rfl).elim

/-- Whatever occurs, a run stays as it is, or something becomes of it as one of its job. -/
theorem Occurs.alters
    (occurs : e.Occurs e')
    (orderly : e.Orderly)
    (entry : e.runs[r]? = some run) :
    ∃ run', e'.runs[r]? = some run' ∧
      (run' = run ∨ ∃ job, e.jobs[run.job]? = some job ∧ e.Becomes r run job run') := by
  cases occurs.touch orderly.rooted with
  | @changes i moved moved' own own' hmoved hown _ runs _ _ how =>
      have hlt := (List.getElem?_eq_some_iff.1 hmoved).1
      rw [runs]
      by_cases hr : i = r
      · subst hr
        obtain rfl := Option.some.inj (entry.symm.trans hmoved)
        refine ⟨moved', List.getElem?_set_self hlt, Or.inr ⟨own, hown, ?_⟩⟩
        rcases how with ⟨signs, walked⟩ | ⟨rfl, -⟩
        · exact .walks walked.walk
        · exact .drops
      · exact ⟨run, (List.getElem?_set_ne hr).trans entry, Or.inl rfl⟩
  | spares runs => exact ⟨run, runs r run entry, Or.inl rfl⟩

theorem Occurs.becomes
    (occurs : e.Occurs e')
    (orderly : e.Orderly)
    (entry : e.runs[r]? = some run)
    (decorated : e.jobs[run.job]? = some job) :
    ∃ run', e'.runs[r]? = some run' ∧ e.Becomes r run job run' := by
  obtain ⟨run', entry', rfl | ⟨own, hown, hbecomes⟩⟩ := occurs.alters orderly entry
  · exact ⟨_, entry', .stays⟩
  · obtain rfl := Option.some.inj (decorated.symm.trans hown)
    exact ⟨run', entry', hbecomes⟩

/-- A run stays one of its job. -/
theorem Occurs.keeps_run
    (occurs : e.Occurs e')
    (orderly : e.Orderly)
    (entry : e.runs[r]? = some run) :
    ∃ run', e'.runs[r]? = some run' ∧ run'.job = run.job := by
  obtain ⟨run', entry', rfl | ⟨_, -, hbecomes⟩⟩ := occurs.alters orderly entry
  · exact ⟨_, entry', rfl⟩
  · exact ⟨run', entry', hbecomes.job_eq⟩

/-- A run that has not been there before has not moved. -/
theorem Occurs.unmoved
    (occurs : e.Occurs e')
    (orderly : e.Orderly)
    (entry' : e'.runs[r]? = some run')
    (new : e.runs[r]? = none) :
    run'.Unmoved := by
  have hge := List.getElem?_eq_none_iff.1 new
  have hset : ∀ {i : RunId} {moved : Run}, e'.runs = e.runs.set i moved → False := by
    intro i moved runs
    have hlt := (List.getElem?_eq_some_iff.1 entry').1
    rw [runs, List.length_set] at hlt
    omega
  rcases occurs.episode_or_dropped orderly.rooted with hepisode | ⟨_, _, _, -, -, hdropped⟩
  · cases hepisode with
    | walk _ _ walked => exact (hset walked.runs).elim
    | launch runs _ unmoved =>
        rw [runs, List.getElem?_append_right hge] at entry'
        rwa [List.mem_singleton.1 (List.mem_of_getElem? entry')]
    | aside _ runs => rw [runs, new] at entry'; cases entry'
  · exact (hset hdropped.runs).elim

theorem Path.keeps_run
    {l : List (Executor × Executor)}
    (path : Path Occurs e l e')
    (orderly : e.Orderly)
    (entry : e.runs[r]? = some run) :
    e'.Orderly ∧ ∃ run', e'.runs[r]? = some run' ∧ run'.job = run.job := by
  induction path with
  | start => exact ⟨orderly, run, entry, rfl⟩
  | next _ last ih =>
      obtain ⟨horderly, run₁, hrun₁, hjob₁⟩ := ih
      obtain ⟨run', hrun', hjob'⟩ := last.keeps_run horderly hrun₁
      exact ⟨horderly.occurs last, run', hrun', hjob'.trans hjob₁⟩

theorem Path.keeps_chain
    {l : List (Executor × Executor)}
    (path : Path Occurs e l e')
    (orderly : e.Orderly)
    {j : JobId}
    (decorated : e.jobs[j]? = some job) :
    e'.Orderly ∧ ∃ job', e'.jobs[j]? = some job' ∧ job'.chain = job.chain := by
  induction path with
  | start => exact ⟨orderly, job, decorated, rfl⟩
  | next _ last ih =>
      obtain ⟨horderly, job₁, hjob₁, hchain₁⟩ := ih
      obtain ⟨job', hjob', hchain'⟩ := last.chain horderly hjob₁
      exact ⟨horderly.occurs last, job', hjob', hchain'.trans hchain₁⟩

/-- **What a run carries with it from step to step it carries along a path.** -/
theorem Path.carries
    {allowed : Executor × Executor → Prop}
    {l : List (Executor × Executor)}
    (path : Path Occurs e l e')
    (carried : List (Executor × Executor) → Run → Prop)
    (orderly : e.Orderly)
    (entry : e.runs[r]? = some run)
    (decorated : e.jobs[run.job]? = some job)
    (all : ∀ s ∈ l, allowed s)
    (start : carried [] run)
    (next : ∀ l s run run' own, s.1.runs[r]? = some run → s.2.runs[r]? = some run' →
      own.chain = job.chain → own.chain.Fits run.stack → s.1.Becomes r run own run' →
      allowed s → carried l run → carried (l ++ [s]) run') :
    ∃ run', e'.runs[r]? = some run' ∧ run'.job = run.job ∧ carried l run' := by
  induction path with
  | start => exact ⟨run, entry, rfl, start⟩
  | @next l b b' path last ih =>
      obtain ⟨run₁, entry₁, hjob, hcarried⟩ := ih fun s hs => all s (List.mem_append_left _ hs)
      obtain ⟨horderly, own, hown, hchain⟩ := path.keeps_chain orderly decorated
      rw [← hjob] at hown
      obtain ⟨run₂, entry₂, hbecomes⟩ := last.becomes horderly entry₁ hown
      have hfits := horderly.fits run₁ (List.mem_of_getElem? entry₁) own hown
      exact ⟨run₂, entry₂, hbecomes.job_eq.trans hjob,
        next l (b, b') run₁ run₂ own entry₁ entry₂ hchain hfits hbecomes
          (all _ List.mem_concat_self) hcarried⟩

/-- A machine follows the passages at a layer of a wrapper: it is right about the layer as it is
made, and takes every passage of a run that stands so, to be right about the layer again. -/
structure Follows
    {σ : Type}
    (w : Wrapper)
    (step : σ → RunId × Passage → Option σ)
    (first : σ)
    (right : σ → (RunId → Place) → Layer → Prop) :
    Prop where
  start : right first (fun _ => .outside) w.layer
  pass : ∀ {s : σ} {place : RunId → Place} {r : RunId} {p : Passage} {l l' : Layer},
    right s place l → l.wrapper = w → l.Kept place → place r = p.before → Passing r l p l' →
      ∃ s', step s (r, p) = some s' ∧ right s' (Function.update place r p.after) l'

/-- **A machine that follows the passages at a layer is right about it, whatever occurs**: it
takes all that the layer has seen, from the beginning. -/
theorem Follows.path
    {σ : Type}
    {w : Wrapper}
    {step : σ → RunId × Passage → Option σ}
    {first : σ}
    {right : σ → (RunId → Place) → Layer → Prop}
    (follows : Follows w step first right)
    (parts : w.Parts)
    {e₀ : Executor}
    {steps : List (Executor × Executor)}
    (runs₀ : e₀.runs = [])
    (jobs₀ : e₀.jobs = [])
    (path : Path Occurs e₀ steps e)
    {j : JobId}
    {d : Nat}
    (decorated : ∀ job, e.jobs[j]? = some job → job.chain[d]? = some w) :
    ∃ s, (history j d steps).foldlM step first = some s ∧
      ((e.jobs[j]? = none ∧ s = first ∧ e.places j d = fun _ => .outside) ∨
        ∃ job l, e.jobs[j]? = some job ∧ job.layers[d]? = some l ∧ right s (e.places j d) l) := by
  induction path with
  | start =>
      refine ⟨first, rfl, Or.inl ⟨by rw [jobs₀]; rfl, rfl, ?_⟩⟩
      funext r
      simp [places, runs₀]
  | @next steps e e' path last ih =>
      obtain ⟨horderly, hwaits⟩ := path.orderly runs₀ jobs₀
      have hlayer : ∃ l', l'.wrapper = w ∧
          ∀ job', e'.jobs[j]? = some job' → job'.layers[d]? = some l' := by
        cases hjob : e'.jobs[j]? with
        | none => exact ⟨w.layer, w.wrapper_layer, by simp⟩
        | some job' =>
            obtain ⟨l', hl', hw⟩ := Job.exists_layer (decorated job' hjob)
            exact ⟨l', hw, by simp [hl']⟩
      obtain ⟨l', hw', hl'⟩ := hlayer
      obtain ⟨s, hs, hright⟩ := ih fun job hjob => by
        obtain ⟨job', hjob', hchain⟩ := last.chain horderly hjob
        rw [← hchain]
        exact decorated job' hjob'
      have hreplay : ∀ t, (history j d (steps ++ [(e, e')])).foldlM step first = some t ↔
          (e.passages j d e').foldlM step s = some t := by
        intro t
        rw [history_concat, List.foldlM_append, hs]
        rfl
      cases last.passes horderly hwaits hl' (hw'.symm ▸ parts) with
      | nobody hpassages hplaces hsame =>
          refine ⟨s, (hreplay s).2 (by rw [hpassages]; rfl), ?_⟩
          rw [hplaces]
          rcases hright with ⟨hnone, rfl, houtside⟩ | ⟨job, l, hjob, hl, hright⟩
          · cases hjob' : e'.jobs[j]? with
            | none => exact Or.inl ⟨rfl, rfl, houtside⟩
            | some job' =>
                -- The job is new, so its layer is as it was made.
                have hkept := (horderly.occurs last).kept j job' hjob' d l' (hl' job' hjob')
                rw [hplaces, houtside] at hkept
                have hfresh : l' = w.layer := by
                  refine Layer.eq_of_bare (by rwa [Wrapper.wrapper_layer]) ?_
                  rw [hkept.idle, hw']
                  cases w <;> rfl
                refine Or.inr ⟨job', l', rfl, hl' job' hjob', ?_⟩
                rw [houtside, hfresh]
                exact follows.start
          · obtain rfl := Option.some.inj (hl.symm.trans (hsame job hjob))
            obtain ⟨job', hjob', -⟩ := last.chain horderly hjob
            exact Or.inr ⟨job', l, hjob', hl' job' hjob', hright⟩
      | @somebody r p job l hpassages hfrom hplaces hjob hl hpassing =>
          rcases hright with ⟨hnone, -, -⟩ | ⟨own, l₁, hown, hl₁, hright⟩
          · rw [hjob] at hnone
            cases hnone
          · obtain rfl := Option.some.inj (hjob.symm.trans hown)
            obtain rfl := Option.some.inj (hl.symm.trans hl₁)
            obtain ⟨job', hjob', hchain⟩ := last.chain horderly hjob
            have hw : l.wrapper = w := by
              have hsame := Job.chain_getElem? (hl' job' hjob')
              rw [hchain, Job.chain_getElem? hl, hw'] at hsame
              exact Option.some.inj hsame
            obtain ⟨s', hs', hright'⟩ := follows.pass hright hw
              (horderly.kept j job hjob d l hl) hfrom hpassing
            refine ⟨s', (hreplay s').2 ?_, Or.inr ⟨job', l', hjob', hl' job' hjob', ?_⟩⟩
            · rw [hpassages]
              simpa [List.foldlM] using hs'
            · rw [hplaces]
              exact hright'

/-- So it is about the layer of a job. -/
theorem Follows.layer
    {σ : Type}
    {w : Wrapper}
    {step : σ → RunId × Passage → Option σ}
    {first : σ}
    {right : σ → (RunId → Place) → Layer → Prop}
    (follows : Follows w step first right)
    (parts : w.Parts)
    {e₀ : Executor}
    {steps : List (Executor × Executor)}
    (runs₀ : e₀.runs = [])
    (jobs₀ : e₀.jobs = [])
    (path : Path Occurs e₀ steps e)
    {j : JobId}
    {d : Nat}
    (decorated : e.jobs[j]? = some job)
    (wrapped : job.chain[d]? = some w) :
    ∃ s l, (history j d steps).foldlM step first = some s ∧ job.layers[d]? = some l ∧
      l.wrapper = w ∧ right s (e.places j d) l := by
  have hwrapped : ∀ own, e.jobs[j]? = some own → own.chain[d]? = some w := by
    intro own hown
    obtain rfl := Option.some.inj (decorated.symm.trans hown)
    exact wrapped
  obtain ⟨s, hreplay, ⟨hnone, -, -⟩ | ⟨own, l, hown, hl, hright⟩⟩ :=
    follows.path parts runs₀ jobs₀ path hwrapped
  · rw [decorated] at hnone
    cases hnone
  · obtain rfl := Option.some.inj (decorated.symm.trans hown)
    rw [Job.chain_getElem? hl] at wrapped
    exact ⟨s, l, hreplay, hl, Option.some.inj wrapped, hright⟩

end Executor
end Timetable
