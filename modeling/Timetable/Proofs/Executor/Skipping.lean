import Timetable.Proofs.Executor.Barrier
import Timetable.Proofs.Executor.Passages

/-!
# One run at a time

A layer that drops runs admits one run at a time.  What it has seen, in whatever order runs
have come and gone, is an account without a gap: a run that arrives while nobody is inside goes
in, a run that arrives while somebody is inside is refused and counted, and whoever is inside
leaves once, by an outcome, by unwinding, or by being dropped.

Main results:

* a turnstile follows the passages at such a layer (follows_admit);
* a run that arrives has one move, which admits it or refuses it by the flag (moves_of_clear,
  moves_of_flagged);
* at most one run is inside at a time, and every run that arrives is accounted for
  (one_at_a_time).
-/

namespace Timetable

/-- Who is inside a turnstile after one more passage, if the turnstile lets it be. -/
def Passage.admit :
    Option RunId → RunId × Passage → Option (Option RunId)
  | none, (r, .enters) => some (some r)
  | some other, (r, .refused) => if r = other then none else some (some other)
  | some other, (r, .leaves) => if r = other then some none else none
  | _, _ => none

namespace Executor

variable {e e' : Executor} {r : RunId} {run run' : Run} {job job' : Job} {signs : List Sign}

/-- A turnstile is right about a layer if it knows who is inside. -/
def Knows
    (inside : Option RunId)
    (place : RunId → Place)
    (_ : Layer) :
    Prop :=
  ∀ r, place r = .inside ↔ inside = some r

/-- A turnstile follows the passages at a layer that drops runs. -/
theorem follows_admit : Follows .skip Passage.admit none Knows where
  start := by simp [Knows]
  pass := by
    intro inside place r p l l' hknows hw hkept hfrom hpassing
    cases hpassing with
    | enterSkip =>
        have hnobody : inside = none := by
          refine Option.eq_none_iff_forall_ne_some.2 fun k hk => ?_
          have hset := hkept.1.2 ⟨k, (hknows k).2 hk⟩
          cases hset
        subst hnobody
        refine ⟨some r, rfl, fun k => ?_⟩
        by_cases hk : k = r
        · simp [hk, Passage.after]
        · simpa [hk, Ne.symm hk] using hknows k
    | refused =>
        obtain ⟨k, hk⟩ := hkept.1.1 rfl
        obtain rfl := (hknows k).1 hk
        have hne : r ≠ k := by
          rintro rfl
          rw [hk] at hfrom
          cases hfrom
        refine ⟨some k, if_neg hne, ?_⟩
        show Knows _ (Function.update place r Place.outside) _
        rw [show Place.outside = place r from hfrom.symm, Function.update_eq_self]
        exact hknows
    | leaveSkip running =>
        obtain rfl := (hknows r).1 hfrom
        refine ⟨none, if_pos rfl, fun k => ?_⟩
        by_cases hk : k = r
        · simp [hk, Passage.after]
        · simpa [hk, Ne.symm hk] using hknows k
    | enterDelay | miss | join | take | turnBack | letIn | leaveDelay | giveUp =>
        simp [Layer.wrapper] at hw

/-- A run that arrives at a layer that drops runs is admitted if the flag is not set. -/
theorem moves_of_clear
    {ctx : Context}
    (entry : e.runs[r]? = some run)
    (decorated : e.jobs[run.job]? = some job)
    (control : run.control = .entering ctx)
    (layer : job.layers[run.stack.length]? = some (.skip false)) :
    ∃ e', e.moves (.run r) = [e'] ∧
      e.passages run.job run.stack.length e' = [(r, .enters)] ∧
      e'.runs = e.runs.set r { run with stack := .skip :: run.stack, control := .entering ctx } ∧
      ∀ s, s ≠ .figure .inFlightRuns → e'.tally s = e.tally s := by
  obtain ⟨e', run', job', signs, hmoves, hwalked⟩ :=
    moves_of_arrival entry decorated control layer
  rcases hwalked.walk.at_layer control layer with
    ⟨f, l', ctx', hopens, rfl, rfl⟩ | ⟨hflag, -⟩ | ⟨lock, holder, hlock, -⟩
  · cases hopens
    refine ⟨e', hmoves, ?_, hwalked.runs, fun s hs => hwalked.tally s hs⟩
    have henters := Run.passage?_eq_some (p := .enters) (place_of_arrival control)
      (run.place_push .skip ctx).1 (by simp)
    rw [passages_of_set entry hwalked.runs, if_pos rfl, henters]
    rfl
  · cases hflag
  · cases hlock

/-- A run that arrives at a layer that drops runs is refused if the flag is set. -/
theorem moves_of_flagged
    {ctx : Context}
    (entry : e.runs[r]? = some run)
    (decorated : e.jobs[run.job]? = some job)
    (control : run.control = .entering ctx)
    (layer : job.layers[run.stack.length]? = some (.skip true)) :
    ∃ e', e.moves (.run r) = [e'] ∧
      e.passages run.job run.stack.length e' = [(r, .refused)] := by
  obtain ⟨e', run', job', signs, hmoves, hwalked⟩ :=
    moves_of_arrival entry decorated control layer
  rcases hwalked.walk.at_layer control layer with
    ⟨f, l', ctx', hopens, -⟩ | ⟨-, rfl⟩ | ⟨lock, holder, hlock, -⟩
  · cases hopens
  · refine ⟨e', hmoves, ?_⟩
    have houtside : Run.place { run with control := .leaving .ok } run.stack.length = .outside :=
      Run.place_of_free rfl le_rfl
    have hrefused : run.passage? { run with control := .leaving .ok } run.stack.length =
        some .refused := by
      simp [Run.passage?, place_of_arrival control, houtside, Run.arrivesAt, control]
    rw [passages_of_set entry hwalked.runs, if_pos rfl, hrefused]
    rfl
  · cases hlock

/-- What has been seen at a layer that drops runs: who is inside now, and what becomes of those
who arrive. -/
structure OneAtATime
    (steps : List (Executor × Executor))
    (e : Executor)
    (j : JobId)
    (d : Nat)
    (inside : Option RunId) :
    Prop where
  /-- All passages go through the turnstile, one after the other. -/
  replays : (history j d steps).foldlM Passage.admit none = some inside
  /-- Nobody else is inside. -/
  alone : ∀ r, e.places j d r = .inside ↔ inside = some r
  /-- The flag is set exactly if somebody is inside. -/
  flag : ∃ job, e.jobs[j]? = some job ∧ job.layers[d]? = some (.skip inside.isSome)
  /-- A run that arrives while nobody is inside can do nothing but go in, and is not counted. -/
  admitted : ∀ (r : RunId) (run : Run) (ctx : Context), e.runs[r]? = some run → run.job = j →
    run.control = .entering ctx → run.stack.length = d → inside = none →
    ∃ e', e.moves (.run r) = [e'] ∧ e.passages j d e' = [(r, .enters)] ∧
      e'.runs = e.runs.set r { run with stack := .skip :: run.stack, control := .entering ctx } ∧
      ∀ s, s ≠ .figure .inFlightRuns → e'.tally s = e.tally s
  /-- A run that arrives while another one is inside can do nothing but return. -/
  turnedAway : ∀ (r : RunId) (run : Run) (ctx : Context), e.runs[r]? = some run → run.job = j →
    run.control = .entering ctx → run.stack.length = d → inside ≠ none →
    ∃ e', e.moves (.run r) = [e'] ∧ e.passages j d e' = [(r, .refused)]

/-- **One run at a time.**  Whatever occurs to an executor without runs and jobs, in any order:
at a layer that drops runs there is at most one run inside, the flag is set exactly if there is
one, a run that arrives goes in if nobody is inside and is refused otherwise, and whoever is
inside leaves before anybody else goes in.  A run that is refused returns at once, touches no
job and no call, and adds one to the runs of the key that were dropped.  A step in which no run
of a job changes leaves that job alone, of whichever chain it and others were made. -/
theorem one_at_a_time
    {e₀ e : Executor}
    {steps : List (Executor × Executor)}
    {j : JobId}
    {d : Nat}
    {job : Job}
    (runs₀ : e₀.runs = [])
    (jobs₀ : e₀.jobs = [])
    (path : Path Occurs e₀ steps e)
    (decorated : e.jobs[j]? = some job)
    (layer : job.chain[d]? = some .skip) :
    (∃ inside, OneAtATime steps e j d inside) ∧
      (∀ s ∈ steps, ∀ r, (r, .refused) ∈ s.1.passages j d s.2 →
        ∃ run, s.1.runs[r]? = some run ∧
          s.2.runs = s.1.runs.set r { run with control := .leaving .ok } ∧
          s.2.jobs = s.1.jobs ∧
          ∀ m, m ≠ .figure .inFlightRuns →
            s.2.tally m = s.1.tally m + [Sign.figure (.skips (s.1.jobKey j))].count m) ∧
      ∀ s ∈ steps, ∀ (i : JobId) (other : Job), s.1.jobs[i]? = some other →
        (∀ (r : RunId) (run : Run), s.1.runs[r]? = some run → run.job = i →
          s.2.runs[r]? = some run) →
        s.2.jobs[i]? = some other := by
  have hstep : ∀ s ∈ steps, s.1.Orderly ∧ s.1.Occurs s.2 := by
    intro s hs
    obtain ⟨_, _, -, hbefore, hoccurs, -⟩ := path.of_mem hs
    exact ⟨(hbefore.orderly runs₀ jobs₀).1, hoccurs⟩
  refine ⟨?_, fun s hs r hrefused => (hstep s hs).2.refused (hstep s hs).1 hrefused,
    fun s hs i other hother hstill => (hstep s hs).2.aloof (hstep s hs).1 hother hstill⟩
  obtain ⟨horderly, -⟩ := path.orderly runs₀ jobs₀
  obtain ⟨inside, l, hreplays, hl, hw, hknows⟩ :=
    follows_admit.layer (Or.inl rfl) runs₀ jobs₀ path decorated layer
  have hflag : l = .skip inside.isSome := by
    cases l with
    | skip running =>
        have hkept := (horderly.kept j job decorated d _ hl).1
        have hsome : (∃ r, e.places j d r = .inside) ↔ inside.isSome = true := by
          rw [Option.isSome_iff_exists]
          exact exists_congr hknows
        rw [hsome] at hkept
        rw [Bool.eq_iff_iff.2 hkept]
    | recover | track | retry | delay | trace | tag => cases hw
  subst hflag
  refine ⟨inside, hreplays, hknows, ⟨job, decorated, hl⟩, ?_, ?_⟩
  · rintro r run ctx entry rfl control rfl rfl
    exact moves_of_clear entry decorated control hl
  · rintro r run ctx entry rfl control rfl hinside
    obtain ⟨other, rfl⟩ := Option.ne_none_iff_exists'.1 hinside
    exact moves_of_flagged entry decorated control hl

/-- A job that drops runs, beside which nothing is registered. -/
def lone : Executor :=
  (bench.addJob [.skip] "first" .null (.ofList [{ sleep := some 50 }])).1

/-- Two jobs made from the same chain. -/
def twins : Executor :=
  (lone.addJob [.skip] "second" .null (.ofList [{ sleep := some 50 }])).1

/-- Two runs of the first job and one of the second arrive; the one inside the first job is
dropped, and another one arrives. -/
def overlapping : List Incident :=
  [.launch 0, .launch 0, .launch 1, .move (.run 0) 0, .move (.run 1) 0, .move (.run 2) 0, .drop 0,
    .launch 0, .move (.run 3) 0]

/-- All that has occurred, from the beginning. -/
def overlaps : List (Executor × Executor) :=
  [(bench, lone), (lone, twins)] ++ undergone overlapping twins

theorem one_at_a_time_overlaps :
    bench.runs = [] ∧ bench.jobs = [] ∧
      ∃ e, Path Occurs bench overlaps e ∧
        history 0 0 overlaps = [(0, .enters), (1, .refused), (0, .leaves), (3, .enters)] ∧
        OneAtATime overlaps e 0 0 (some 3) ∧ OneAtATime overlaps e 1 0 (some 2) := by
  let e := terminus twins (undergone overlapping twins)
  have hmade : Path Occurs bench [(bench, lone), (lone, twins)] twins :=
    (Path.single (.befalls (.act (.change (.addJob _ _ _))))).append
      (Path.single (.befalls (.act (.change (.addJob _ _ _)))))
  have hpath : Path Occurs bench overlaps e :=
    hmade.append (path_undergone overlapping twins fun _ _ _ _ h => occurs_of_undergo h)
  have hskips : ((e.jobs.map Job.chain).all fun chain => chain[0]? == some .skip) = true ∧
      e.jobs.length = 2 := by
    decide +kernel
  have hone : ∀ j < 2, ∀ k, (history j 0 overlaps).foldlM Passage.admit none = some k →
      OneAtATime overlaps e j 0 k := by
    intro j hj k hk
    have hjob := List.getElem?_eq_getElem (hskips.2.symm ▸ hj : j < e.jobs.length)
    have hchain := List.all_eq_true.1 hskips.1 _
      (List.mem_map_of_mem (List.mem_of_getElem? hjob))
    obtain ⟨⟨k', hk'⟩, -⟩ := one_at_a_time rfl rfl hpath hjob (beq_iff_eq.1 hchain)
    obtain rfl := Option.some.inj (hk'.replays.symm.trans hk)
    exact hk'
  exact ⟨rfl, rfl, e, hpath, by decide +kernel, hone 0 (by decide) _ (by decide +kernel),
    hone 1 (by decide) _ (by decide +kernel)⟩

end Executor
end Timetable
