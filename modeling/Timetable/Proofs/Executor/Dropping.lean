import Timetable.Proofs.Executor.Episodes

/-!
# Runs that are dropped

Whoever holds a run may drop it before it is over.  The run leaves the queue in which it
waits, gives up what its frames hold, the innermost first, and never moves again.  To
each layer of its job it is as if the run had left the layer, or its queue, by itself.
So the notes of the layers stay right, and the others go on as they would have.

Main results:

* of each layer a run that is dropped gives up what it has of it, according to where it
  stands (layers_dropped), and the note of the layer stays right (Layer.Kept.givenUp);
* dropping a run changes its entry and its job, and counts nothing (dropped_of_dropRun);
* whatever occurs, drops included, leaves everything in order (Orderly.occurred).
-/

namespace Timetable

/-- The layer after a run that stands so to it has given up what it has of it. -/
def Layer.givenUp
    (r : RunId) :
    Place → Layer → Layer
  | .inside, .skip _ => .skip false
  | .inside, .delay lock => .delay lock.release
  | .waiting, .delay lock => .delay (lock.leave r)
  | _, l => l

@[simp] theorem Layer.wrapper_givenUp
    (r : RunId)
    (p : Place)
    (l : Layer) :
    (l.givenUp r p).wrapper = l.wrapper := by
  cases p <;> cases l <;> rfl

/-- Of a layer that keeps no note nothing is given up. -/
theorem Layer.givenUp_of_noNote
    {l : Layer}
    (noSkip : l.wrapper ≠ .skip)
    (noDelay : l.wrapper ≠ .delay)
    (r : RunId)
    (p : Place) :
    l.givenUp r p = l := by
  cases l with
  | skip => exact absurd rfl noSkip
  | delay => exact absurd rfl noDelay
  | recover | track | retry | trace | tag => cases p <;> rfl

namespace Job

/-- The job after a run has left the queue in which it waits. -/
def dequeued
    (job : Job)
    (r : RunId)
    (run : Run) :
    Job :=
  match run.control, job.layers[run.stack.length]? with
  | .queued _, some (.delay lock) => job.setLayer run.stack.length (.delay (lock.leave r))
  | _, _ => job

/-- The job after all frames of a stack have given up what their layers hold. -/
def releasedAll
    (job : Job) :
    List Frame → Job
  | [] => job
  | f :: frames => (job.released frames.length f).releasedAll frames

/-- The job after one of its runs has been dropped. -/
def dropped
    (job : Job)
    (r : RunId)
    (run : Run) :
    Job :=
  (job.dequeued r run).releasedAll run.stack

/-- A layer is set: so it is, and the others are as before. -/
theorem layers_setLayer
    {job : Job}
    {k : Nat}
    {l : Layer}
    (hl : job.layers[k]? = some l)
    (f : Layer → Layer)
    (d : Nat) :
    (job.setLayer k (f l)).layers[d]? =
      (job.layers[d]?).map fun l => if d = k then f l else l := by
  have hlt := (List.getElem?_eq_some_iff.1 hl).1
  by_cases hd : d = k
  · subst hd
    simp [setLayer, List.getElem?_set_self hlt, hl]
  · simp [setLayer, List.getElem?_set_ne (Ne.symm hd), hd]

theorem layers_released
    {job : Job}
    {k : Nat}
    {f : Frame}
    {w : Wrapper}
    (hw : job.chain[k]? = some w)
    (fits : w.fits f = true)
    (r : RunId)
    (d : Nat) :
    (job.released k f).layers[d]? =
      (job.layers[d]?).map fun l => if d = k then l.givenUp r .inside else l := by
  rcases released_cases hw fits with
    ⟨running, -, hl, h⟩ | ⟨lock, -, hl, h⟩ | ⟨noSkip, noDelay, h⟩
  · rw [h]
    exact layers_setLayer hl (Layer.givenUp r .inside) d
  · rw [h]
    exact layers_setLayer hl (Layer.givenUp r .inside) d
  · rw [h]
    by_cases hd : d = k
    · subst hd
      obtain ⟨l, hl, rfl⟩ := exists_layer hw
      simp [hl, Layer.givenUp_of_noNote noSkip noDelay]
    · simp [hd]

theorem layers_releasedAll
    {job : Job}
    {frames : List Frame}
    (fits : job.chain.Fits frames)
    (r : RunId)
    (d : Nat) :
    (job.releasedAll frames).layers[d]? =
      (job.layers[d]?).map fun l => if d < frames.length then l.givenUp r .inside else l := by
  induction frames generalizing job with
  | nil => simp [releasedAll]
  | cons f frames ih =>
      obtain ⟨⟨w, hw, hf⟩, hframes⟩ := fits
      rw [← chain_released hw hf] at hframes
      rw [releasedAll, ih hframes, layers_released hw hf r, Option.map_map]
      refine congrArg (fun g => (job.layers[d]?).map g) (funext fun l => ?_)
      rcases Nat.lt_trichotomy d frames.length with hd | rfl | hd
      · simp [hd, hd.ne, Nat.lt_succ_of_lt hd]
      · simp
      · simp [hd.ne', Nat.not_lt.2 hd.le, Nat.not_lt.2 (Nat.succ_le_of_lt hd)]

theorem layers_dequeued
    (job : Job)
    (r : RunId)
    (run : Run)
    (d : Nat) :
    (job.dequeued r run).layers[d]? =
      (job.layers[d]?).map fun l =>
        if run.stack.length = d then l.givenUp r run.control.door else l := by
  unfold dequeued
  split
  · rename_i ctx lock hcontrol hl
    refine (layers_setLayer hl (Layer.givenUp r .waiting) d).trans ?_
    simp [Control.door, hcontrol, eq_comm]
  · rename_i hother
    by_cases hd : run.stack.length = d
    · subst hd
      cases hl : job.layers[run.stack.length]? with
      | none => rfl
      | some l =>
          cases hcontrol : run.control with
          | queued ctx =>
              cases l with
              | delay lock => exact absurd hl (hother ctx lock hcontrol)
              | recover | track | retry | skip | trace | tag =>
                  simp [Control.door, Layer.givenUp]
          | entering | joining | asleep | held | ending | pausing | leaving | unwinding
          | returned | unwound | dropped => simp [Control.door, Layer.givenUp]
    · simp [hd]

theorem chain_dequeued
    (job : Job)
    (r : RunId)
    (run : Run) :
    (job.dequeued r run).chain = job.chain := by
  refine List.ext_getElem? fun d => ?_
  rw [chain, chain, List.getElem?_map, List.getElem?_map, layers_dequeued, Option.map_map]
  refine congrArg (fun g => (job.layers[d]?).map g) (funext fun l => ?_)
  by_cases hd : run.stack.length = d <;> simp [hd]

/-- **Of each layer the run gives up what it has of it**, according to where it stands. -/
theorem layers_dropped
    {job : Job}
    {run : Run}
    (fits : job.chain.Fits run.stack)
    (r : RunId)
    (d : Nat) :
    (job.dropped r run).layers[d]? = (job.layers[d]?).map (Layer.givenUp r (run.place d)) := by
  rw [← chain_dequeued job r run] at fits
  rw [dropped, layers_releasedAll fits r, layers_dequeued, Option.map_map]
  refine congrArg (fun g => (job.layers[d]?).map g) (funext fun l => ?_)
  by_cases hd : d < run.stack.length
  · simp [Run.place, hd, hd.ne']
  · by_cases hq : run.stack.length = d
    · simp [Run.place, hq]
    · simp [Run.place, hd, hq, Layer.givenUp]

theorem task_releasedAll
    (frames : List Frame)
    (job : Job) :
    (job.releasedAll frames).task = job.task := by
  induction frames generalizing job with
  | nil => rfl
  | cons f frames ih =>
      rw [releasedAll, ih]
      cases f with
      | delay =>
          unfold released
          dsimp only
          split <;> rfl
      | recover | track | retry | skip | trace | tag => rfl

/-- A job keeps its task when one of its runs is dropped. -/
theorem task_dropped
    (job : Job)
    (r : RunId)
    (run : Run) :
    (job.dropped r run).task = job.task := by
  rw [dropped, task_releasedAll]
  unfold dequeued
  split <;> rfl

theorem chain_dropped
    {job : Job}
    {run : Run}
    (fits : job.chain.Fits run.stack)
    (r : RunId) :
    (job.dropped r run).chain = job.chain := by
  refine List.ext_getElem? fun d => ?_
  rw [chain, chain, List.getElem?_map, List.getElem?_map, layers_dropped fits, Option.map_map]
  refine congrArg (fun g => (job.layers[d]?).map g) (funext fun l => ?_)
  simp

end Job

/-- A run that leaves a lock is on it no longer. -/
theorem Lock.line_leave
    (lock : Lock)
    (r : RunId) :
    (lock.leave r).line = lock.line.erase r := by
  unfold Lock.leave
  split
  · rename_i held
    rw [Lock.line_of_held held, List.erase_cons_head]
  · rename_i other
    have hnot : r ∉ lock.holder.toList := by simpa [eq_comm] using other
    rw [Lock.line, Lock.line, List.erase_append_right _ hnot]

/-- A run that waits for a lock leaves its queue, or hands on the lock that has just come to
it. -/
theorem Lock.Kept.leave
    {place : RunId → Place}
    {lock : Lock}
    {r : RunId}
    (kept : lock.Kept place)
    (waiting : place r = .waiting) :
    (lock.leave r).Kept (Function.update place r .outside) := by
  have hline := lock.line_leave r
  unfold Lock.leave at hline ⊢
  split
  · rename_i held
    exact kept.release held
  · rename_i other
    rw [if_neg other] at hline
    refine ⟨?_, ?_, ?_, ?_⟩
    · intro r'
      rw [hline, kept.nodup.mem_erase_iff]
      by_cases hr : r' = r
      · simp [hr, Place.isLined]
      · simpa [hr] using kept.line r'
    · rw [hline]
      exact kept.nodup.erase r
    · intro r' hinside
      by_cases hr : r' = r
      · subst hr
        simp at hinside
      · rw [Function.update_of_ne hr] at hinside
        exact kept.inside r' hinside
    · intro hfree
      simp [kept.free hfree]

/-- **What a run gives up leaves the note of the layer right.** -/
theorem Layer.Kept.givenUp
    {place : RunId → Place}
    {l : Layer}
    (kept : l.Kept place)
    (r : RunId) :
    (l.givenUp r (place r)).Kept (Function.update place r .outside) := by
  have hskip : ∀ {running : Bool}, place r ≠ .inside → (Layer.skip running).Kept place →
      (Layer.skip running).Kept (Function.update place r .outside) := by
    intro running hout hkept
    have hinside : ∀ k, Function.update place r .outside k = .inside ↔ place k = .inside := by
      intro k
      by_cases hk : k = r
      · subst hk
        simp [hout]
      · rw [Function.update_of_ne hk]
    simpa only [Layer.Kept, hinside] using hkept
  cases hp : place r with
  | outside =>
      have hsame : l.givenUp r .outside = l := by cases l <;> rfl
      rw [hsame, ← hp, Function.update_eq_self]
      exact kept
  | coming =>
      cases l with
      | delay lock => exact Lock.Kept.elsewhere kept (by rw [hp]; rfl) rfl
      | skip running => exact hskip (by simp [hp]) kept
      | recover | track | retry | trace | tag => trivial
  | waiting =>
      cases l with
      | delay lock => exact Lock.Kept.leave kept hp
      | skip running => exact hskip (by simp [hp]) kept
      | recover | track | retry | trace | tag => trivial
  | inside =>
      cases l with
      | skip running => exact kept.crossing (.leaveSkip running) hp
      | delay lock => exact kept.crossing (.leaveDelay lock) hp
      | recover | track | retry | trace | tag => trivial

namespace Executor

variable {e e' : Executor} {r : RunId} {run : Run} {job : Job}

theorem Amends.leaveQueue
    (decorated : e.jobs[run.job]? = some job)
    (r : RunId) :
    e.Amends (e.leaveQueue r run) run.job (job.dequeued r run) [] := by
  have hstart := Amends.refl decorated
  have hlayer : e.layer? run.job run.stack.length = job.layers[run.stack.length]? := by
    rw [layer?, decorated, Option.bind_some]
  unfold Executor.leaveQueue Job.dequeued
  rw [hlayer]
  cases run.control with
  | queued ctx =>
      cases job.layers[run.stack.length]? with
      | none => exact hstart
      | some l =>
          cases l with
          | delay lock => exact hstart.modifyJob _
          | recover | track | retry | skip | trace | tag => exact hstart
  | _ => exact hstart

theorem Amends.releaseAll
    {e₁ : Executor}
    {signs : List Sign}
    (h : e.Amends e₁ run.job job signs)
    (frames : List Frame) :
    e.Amends (e₁.releaseAll run frames) run.job (job.releasedAll frames) signs := by
  induction frames generalizing e₁ job with
  | nil => exact h
  | cons f frames ih => exact ih (h.release frames.length f)

/-- A run of a job is dropped: nothing else has changed among the runs and jobs, and nothing has
been counted. -/
structure Dropped
    (e e' : Executor)
    (r : RunId)
    (run : Run)
    (job : Job) :
    Prop where
  lasts : run.isOver = false
  runs : e'.runs = e.runs.set r { run with stack := [], control := .dropped }
  jobs : e'.jobs = e.jobs.set run.job (job.dropped r run)
  tally : ∀ s, s ≠ .figure .inFlightRuns → e'.tally s = e.tally s

/-- **A run that is over stays as it is, and any other one is dropped.** -/
theorem dropped_of_dropRun
    (entry : e.runs[r]? = some run)
    (decorated : e.jobs[run.job]? = some job) :
    (run.isOver = true ∧ e.dropRun r = e) ∨ e.Dropped (e.dropRun r) r run job := by
  have hreleased := (Amends.leaveQueue decorated r).releaseAll run.stack
  simp only [dropRun, entry]
  split
  · exact Or.inl ⟨‹_›, rfl⟩
  · rename_i hlasts
    right
    have hdropped : ∀ {e₁ : Executor}, e.Amends e₁ run.job (job.dropped r run) [] →
        e.Dropped (e₁.setRun r { run with stack := [], control := .dropped }) r run job :=
      fun h => ⟨by simpa using hlasts, congrArg (List.set · r _) h.runs, h.jobs, fun s hs => by
        cases s <;> exact h.tally _ hs⟩
    split
    · exact hdropped (hreleased.leave _)
    · exact hdropped hreleased

/-- Something occurs to the executor: something befalls it, or somebody drops a run. -/
inductive Occurs (e : Executor) : Executor → Prop where
  | befalls
      {e' : Executor}
      (h : e.Befalls e') :
      Occurs e e'
  | drop
      {r : RunId}
      {run : Run}
      {job : Job}
      (entry : e.runs[r]? = some run)
      (decorated : e.jobs[run.job]? = some job) :
      Occurs e (e.dropRun r)

/-- Things occur to the executor one after the other. -/
abbrev Occurred : Executor → Executor → Prop :=
  Relation.ReflTransGen Occurs

/-- What occurs to the runs and jobs is an episode, or one run is dropped. -/
theorem Occurs.episode_or_dropped
    (h : e.Occurs e')
    (rooted : e.Rooted) :
    e.Episode e' ∨ ∃ r run job, e.runs[r]? = some run ∧ e.jobs[run.job]? = some job ∧
      e.Dropped e' r run job := by
  cases h with
  | befalls h => exact Or.inl (h.episode rooted)
  | drop entry decorated =>
      rcases dropped_of_dropRun entry decorated with ⟨-, hsame⟩ | hdropped
      · exact Or.inl (hsame.symm ▸ episode_of_quiet rfl rfl)
      · exact Or.inr ⟨_, _, _, entry, decorated, hdropped⟩

section Drops

variable (gone : e.Dropped e' r run job)
include gone

/-- A run that is dropped leaves all layers of its job, and no other run leaves any. -/
theorem Dropped.places
    (entry : e.runs[r]? = some run)
    (j : JobId)
    (d : Nat) :
    e'.places j d =
      if run.job = j then Function.update (e.places j d) r .outside else e.places j d := by
  have hlt : r < e.runs.length := (List.getElem?_eq_some_iff.1 entry).1
  have houtside : Run.place { run with stack := [], control := .dropped } d = .outside :=
    Run.place_of_free rfl (Nat.zero_le _)
  funext k
  unfold Executor.places
  rw [gone.runs]
  by_cases hk : k = r
  · subst hk
    rw [List.getElem?_set_self hlt]
    by_cases hj : run.job = j
    · simp [hj, ← houtside]
    · simp [hj, entry]
  · rw [List.getElem?_set_ne (Ne.symm hk)]
    by_cases hj : run.job = j <;> simp [hj, hk]

/-- Dropping a run leaves the notes of all layers right. -/
theorem Orderly.kept_dropped
    (orderly : e.Orderly)
    (entry : e.runs[r]? = some run)
    (decorated : e.jobs[run.job]? = some job)
    {j : JobId}
    {other : Job}
    (later : e'.jobs[j]? = some other)
    {d : Nat}
    {l : Layer}
    (layer : other.layers[d]? = some l) :
    l.Kept (e'.places j d) := by
  have hfits := orderly.fits run (List.mem_of_getElem? entry) job decorated
  rw [gone.places entry j d]
  rw [gone.jobs] at later
  by_cases hj : run.job = j
  · subst hj
    rw [List.getElem?_set_self (List.getElem?_eq_some_iff.1 decorated).1] at later
    obtain rfl := Option.some.inj later
    rw [Job.layers_dropped hfits, Option.map_eq_some_iff] at layer
    obtain ⟨l, hl, rfl⟩ := layer
    have hplace : e.places run.job d r = run.place d := by simp [Executor.places, entry]
    rw [if_pos rfl, ← hplace]
    exact (orderly.kept _ job decorated d l hl).givenUp r
  · rw [if_neg hj]
    rw [List.getElem?_set_ne hj] at later
    exact orderly.kept j other later d l layer

theorem Orderly.dropped
    (orderly : e.Orderly)
    (entry : e.runs[r]? = some run)
    (decorated : e.jobs[run.job]? = some job) :
    e'.Orderly := by
  have hlt : run.job < e.jobs.length := (List.getElem?_eq_some_iff.1 decorated).1
  have hruns : ∀ other ∈ e'.runs, other ∈ e.runs ∨
      other = { run with stack := [], control := .dropped } := by
    rw [gone.runs]
    exact fun other => List.mem_or_eq_of_mem_set
  have hlength : e'.jobs.length = e.jobs.length := by rw [gone.jobs, List.length_set]
  refine ⟨?_, ?_, ?_, ?_⟩
  · intro other hother
    rw [hlength]
    rcases hruns other hother with hold | rfl
    · exact orderly.rooted other hold
    · exact Or.inl hlt
  · intro other hother own hown
    rcases hruns other hother with hold | rfl
    · rw [gone.jobs] at hown
      by_cases hj : run.job = other.job
      · rw [← hj, List.getElem?_set_self hlt] at hown
        obtain rfl := Option.some.inj hown
        rw [Job.chain_dropped (orderly.fits run (List.mem_of_getElem? entry) job decorated)]
        exact orderly.fits other hold job (hj ▸ decorated)
      · rw [List.getElem?_set_ne hj] at hown
        exact orderly.fits other hold own hown
    · trivial
  · intro other hother hover
    rcases hruns other hother with hold | rfl
    · exact orderly.ended other hold hover
    · rfl
  · intro j other hjob d l hl
    exact orderly.kept_dropped gone entry decorated hjob hl

end Drops

/-- **Whatever occurs leaves everything in order.** -/
theorem Orderly.occurs
    (orderly : e.Orderly)
    (occurs : e.Occurs e') :
    e'.Orderly := by
  rcases occurs.episode_or_dropped orderly.rooted with
    hepisode | ⟨r, run, job, entry, decorated, hdropped⟩
  · exact orderly.episode hepisode
  · exact orderly.dropped hdropped entry decorated

theorem Orderly.occurred
    (orderly : e.Orderly)
    (occurred : e.Occurred e') :
    e'.Orderly := by
  induction occurred with
  | refl => exact orderly
  | tail _ occurs ih => exact ih.occurs occurs

/-- A job keeps its chain, whatever occurs. -/
theorem Occurs.chain
    (occurs : e.Occurs e')
    (orderly : e.Orderly)
    {j : JobId}
    (decorated : e.jobs[j]? = some job) :
    ∃ job', e'.jobs[j]? = some job' ∧ job'.chain = job.chain := by
  rcases occurs.episode_or_dropped orderly.rooted with
    hepisode | ⟨r, run, own, entry, hown, hdropped⟩
  · exact hepisode.chain orderly decorated
  · have hfits := orderly.fits run (List.mem_of_getElem? entry) own hown
    rw [hdropped.jobs]
    exact keeps_set (R := fun a b => b.chain = a.chain) (fun _ => rfl) hown
      (Job.chain_dropped hfits r) decorated

end Executor
end Timetable
