import Mathlib.Tactic
import Timetable.Executor.Turn

/-!
# Quiet changes

Much of what a task does leaves no trace in the tables of runs, timers and
waiters nor in the counts: it writes into the journal, opens or finishes spans,
makes tokens, or changes what a layer of its job keeps.  Such a change is quiet.
The keys of the jobs stay, and no job gets a further layer that counts runs.

Main results:

* quiet changes can be put together (Quiet.trans);
* the end of a run that the fault barrier notes is quiet (quiet_noteEnd);
* giving up what a frame holds is quiet, unless the frame counts the run
  (quiet_release).
-/

namespace Timetable

namespace Job

/-- A job with the same key, and without further layers that count runs. -/
structure Keeps (job job' : Job) : Prop where
  key : job'.task.key = job.task.key
  tracked : ∀ t, Layer.track t ∈ job'.layers → Layer.track t ∈ job.layers

theorem Keeps.refl (job : Job) : job.Keeps job :=
  ⟨rfl, fun _ h => h⟩

theorem Keeps.trans
    {a b c : Job}
    (hab : a.Keeps b)
    (hbc : b.Keeps c) :
    a.Keeps c :=
  ⟨hbc.key.trans hab.key, fun t ht => hab.tracked t (hbc.tracked t ht)⟩

theorem keeps_setLayer
    {job : Job}
    {k : Nat}
    {l : Layer}
    (hl : ∀ t, l ≠ .track t) :
    job.Keeps (job.setLayer k l) := by
  refine ⟨rfl, ?_⟩
  intro t ht
  rcases List.mem_or_eq_of_mem_set ht with h | h
  · exact h
  · exact absurd h.symm (hl t)

theorem keeps_setLast
    (job : Job)
    (k : Nat)
    (o : Outcome) :
    job.Keeps (job.setLast k o) := by
  refine ⟨rfl, ?_⟩
  intro t ht
  rcases List.mem_iff_getElem?.1 ht with ⟨i, hi⟩
  rw [setLast, List.getElem?_modify, Option.map_eq_map, Option.map_eq_some_iff] at hi
  obtain ⟨l, hl, hEq⟩ := hi
  split at hEq
  · -- Only a layer that keeps outcomes is changed, and stays of its kind.
    cases l <;> simp [Layer.withLast] at hEq
    subst hEq
    exact List.mem_of_getElem? hl
  · exact hEq ▸ List.mem_of_getElem? hl

end Job

namespace Executor

/-- The jobs are the same ones and keep what they have. -/
structure KeepsJobs (e e' : Executor) : Prop where
  length : e'.jobs.length = e.jobs.length
  keeps : ∀ (j : JobId) (job' : Job), e'.jobs[j]? = some job' →
    ∃ job, e.jobs[j]? = some job ∧ job.Keeps job'

theorem KeepsJobs.of_eq
    {e e' : Executor}
    (h : e'.jobs = e.jobs) :
    e.KeepsJobs e' :=
  ⟨by rw [h], fun j job hj => ⟨job, h ▸ hj, .refl job⟩⟩

theorem KeepsJobs.trans
    {a b c : Executor}
    (hab : a.KeepsJobs b)
    (hbc : b.KeepsJobs c) :
    a.KeepsJobs c := by
  refine ⟨hbc.length.trans hab.length, ?_⟩
  intro j job'' h
  obtain ⟨job', hj', hk'⟩ := hbc.keeps j job'' h
  obtain ⟨job, hj, hk⟩ := hab.keeps j job' hj'
  exact ⟨job, hj, hk.trans hk'⟩

/-- The key of a job is what it was. -/
theorem KeepsJobs.jobKey
    {e e' : Executor}
    (h : e.KeepsJobs e')
    (j : JobId) :
    e'.jobKey j = e.jobKey j := by
  unfold Executor.jobKey
  cases hj : e'.jobs[j]? with
  | none =>
      rw [List.getElem?_eq_none_iff, h.length, ← List.getElem?_eq_none_iff] at hj
      rw [hj]
  | some job' =>
      obtain ⟨job, hjob, hk⟩ := h.keeps j job' hj
      simp [hjob, hk.key]

/-- Nothing has happened to the runs, timers and waiters, the counts and the engine, nor to
what the jobs keep. -/
structure Quiet (e e' : Executor) : Prop where
  runs : e'.runs = e.runs
  timers : e'.timers = e.timers
  waiters : e'.waiters = e.waiters
  trackers : e'.trackers = e.trackers
  running : e'.running = e.running
  dispatched : e'.dispatched = e.dispatched
  jobs : e.KeepsJobs e'

theorem Quiet.refl (e : Executor) : e.Quiet e :=
  ⟨rfl, rfl, rfl, rfl, rfl, rfl, .of_eq rfl⟩

theorem Quiet.trans
    {a b c : Executor}
    (hab : a.Quiet b)
    (hbc : b.Quiet c) :
    a.Quiet c :=
  ⟨hbc.runs.trans hab.runs, hbc.timers.trans hab.timers, hbc.waiters.trans hab.waiters,
    hbc.trackers.trans hab.trackers, hbc.running.trans hab.running,
    hbc.dispatched.trans hab.dispatched, hab.jobs.trans hbc.jobs⟩

theorem quiet_note
    (e : Executor)
    (event : Event) :
    e.Quiet (e.note event) :=
  ⟨rfl, rfl, rfl, rfl, rfl, rfl, .of_eq rfl⟩

theorem quiet_cancel
    (e : Executor)
    (t : TokenId) :
    e.Quiet (e.cancel t) :=
  ⟨rfl, rfl, rfl, rfl, rfl, rfl, .of_eq rfl⟩

theorem quiet_noteAll
    (e : Executor)
    (events : List Event) :
    e.Quiet (e.noteAll events) :=
  ⟨rfl, rfl, rfl, rfl, rfl, rfl, .of_eq rfl⟩

theorem quiet_logRun
    (e : Executor)
    (run : Run)
    (frames : List Frame)
    (level : Level)
    (message : String)
    (fields : List (String × String)) :
    e.Quiet (e.logRun run frames level message fields) :=
  e.quiet_note _

theorem quiet_modifyJob
    (e : Executor)
    (j : JobId)
    {f : Job → Job}
    (hf : ∀ job, e.jobs[j]? = some job → job.Keeps (f job)) :
    e.Quiet (e.modifyJob j f) := by
  refine ⟨rfl, rfl, rfl, rfl, rfl, rfl, List.length_modify .., ?_⟩
  intro k job' h
  change (e.jobs.modify j f)[k]? = some job' at h
  rw [List.getElem?_modify, Option.map_eq_map, Option.map_eq_some_iff] at h
  obtain ⟨job, hk, rfl⟩ := h
  refine ⟨job, hk, ?_⟩
  split
  · rename_i hjk
    exact hf job (hjk ▸ hk)
  · exact .refl job

theorem quiet_keepLast
    (e : Executor)
    (run : Run)
    (depth : Nat)
    (o : Outcome) :
    e.Quiet (e.keepLast run depth o) :=
  e.quiet_modifyJob run.job fun job _ => job.keeps_setLast depth o

theorem quiet_openSpan
    (e : Executor)
    (tracer : Tracer)
    (name : String)
    (parent : Option SpanRef)
    (tags : List (String × String)) :
    e.Quiet (e.openSpan tracer name parent tags).1 := by
  cases tracer with
  | recording => exact ⟨rfl, rfl, rfl, rfl, rfl, rfl, .of_eq rfl⟩
  | logging => exact e.quiet_note _
  | silent => exact .refl e

theorem quiet_attachFailure
    (e : Executor)
    (span : SpanRef)
    (f : JobFailure) :
    e.Quiet (e.attachFailure span f) := by
  cases span with
  | recorded n => exact ⟨rfl, rfl, rfl, rfl, rfl, rfl, .of_eq rfl⟩
  | logged n => exact (e.quiet_note _).trans (quiet_note _ _)
  | silent => exact .refl e

theorem quiet_finishSpan
    (e : Executor)
    (span : SpanRef) :
    e.Quiet (e.finishSpan span) := by
  cases span with
  | recorded n => exact ⟨rfl, rfl, rfl, rfl, rfl, rfl, .of_eq rfl⟩
  | logged n => exact e.quiet_note _
  | silent => exact .refl e

theorem quiet_noteEnd
    (e : Executor)
    (run : Run)
    (frames : List Frame)
    (o : Outcome) :
    e.Quiet (e.noteEnd run frames o) := by
  unfold noteEnd
  refine Quiet.trans ?_ (quiet_keepLast _ _ _ _)
  cases o with
  | ok => exact e.quiet_note _
  | err f =>
      dsimp only
      split
      · exact e.quiet_note _
      · exact ((e.quiet_note _).trans (quiet_note _ _)).trans (quiet_logRun _ _ _ _ _ _)

/-- Giving up what a frame holds is quiet, unless the frame counts the run. -/
theorem quiet_release
    (e : Executor)
    (run : Run)
    (depth : Nat)
    {f : Frame}
    (hf : ∀ t, f ≠ .track t) :
    e.Quiet (e.release run depth f) := by
  cases f with
  | track t => exact absurd rfl (hf t)
  | skip => exact e.quiet_modifyJob run.job fun job _ => Job.keeps_setLayer (by simp)
  | delay =>
      simp only [release]
      split
      · exact e.quiet_modifyJob run.job fun job _ => Job.keeps_setLayer (by simp)
      · exact .refl e
  | recover | retry | trace | tag => exact .refl e

end Executor
end Timetable
