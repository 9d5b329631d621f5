import Timetable.Proofs.Executor.Accounts
import Timetable.Proofs.Registry.Ownership

/-!
# A registry in service

The executor of a registry is in service while its engine is the only one who starts
runs, and no figure of a key is written by hand.  Whatever else happens then, in
whatever order, the books of the keys are kept: the accounts of all keys balance.

Main results:

* what service does to runs, jobs and figures is a walk, an activation, or neither
  (Serve.turnover);
* runs and timers keep their jobs, and jobs their chain (Staffed.serve);
* service keeps the books (Booked.serve).
-/

namespace Timetable

namespace Executor

/-- Something happens to the executor of a registry with a chain, but nobody starts a run by
hand, and no figure of a key is written by hand. -/
inductive Serve
    (c : Chain)
    (e : Executor) :
    Executor → Prop
  | tick
      {e' : Executor}
      (h : e.Tick e') :
      Serve c e e'
  | exhaust (n : Nat) : Serve c e (e.exhaust n)
  | giveUp (n : Nat) : Serve c e (e.giveUp n)
  | close (n : Nat) : Serve c e (e.close n)
  | cancel (t : TokenId) : Serve c e (e.cancel t)
  | rearm (s : SignalId) : Serve c e (e.rearm s)
  | startEngine : Serve c e e.startEngine
  | stopEngine : Serve c e e.stopEngine
  | note
      (event : Event)
      (plain : event.key? = none) :
      Serve c e (e.note event)
  /-- A job is decorated with the chain, and a timer armed for it. -/
  | enlist
      (key : String)
      (value : Value)
      (script : Script)
      (schedule : Schedule)
      (driven : Bool) :
      Serve c e ((e.addJob c key value script).1.arm schedule e.jobs.length driven).1

/-- Things happen one after the other while a registry is in service. -/
abbrev Serves (c : Chain) : Executor → Executor → Prop :=
  Relation.ReflTransGen (Serve c)

variable {c : Chain} {e e' : Executor}

theorem Serve.befell (h : Serve c e e') : e.Befell e' := by
  have hchange : ∀ {e e' : Executor}, Change c e e' → e.Befell e' := fun h =>
    .single (.act (.change h))
  cases h with
  | tick h => exact hchange (.drift h.drift)
  | exhaust n => exact hchange (.drift (.exhaust n))
  | giveUp n => exact hchange (.giveUp n)
  | close n => exact hchange (.close n)
  | cancel t => exact .single (.cancel t)
  | rearm s => exact hchange (.rearm s)
  | startEngine => exact .single (.act (c := c) .startEngine)
  | stopEngine => exact hchange .stopEngine
  | note event => exact hchange (.drift (.note event))
  | enlist key value script schedule driven =>
      exact (hchange (.addJob key value script)).trans (hchange (.arm schedule _ driven))

theorem serves_noteAll
    (e : Executor)
    {events : List Event}
    (plain : ∀ event ∈ events, event.key? = none) :
    Serves c e (e.noteAll events) := by
  induction events generalizing e with
  | nil => exact .refl
  | cons event events ih =>
      rw [List.forall_mem_cons] at plain
      exact .head (.note event plain.1) (ih (e.note event) plain.2)

theorem Ticks.serves (h : e.Ticks e') : Serves c e e' :=
  Relation.ReflTransGen.mono (fun _ _ => .tick) _ _ h

/-- Every run and every timer has a job, and every job has the chain. -/
structure Staffed
    (c : Chain)
    (e : Executor) :
    Prop where
  housed : e.Housed
  armed : e.ArmedForJobs
  chains : ∀ job ∈ e.jobs, job.chain = c

/-- What service does to runs, jobs and figures: a run walks, an activation is counted and its
run started, or neither. -/
inductive Turnover
    (c : Chain)
    (e e' : Executor) :
    Prop where
  | walk
      {r : RunId}
      {run run' : Run}
      {job job' : Job}
      {signs : List Sign}
      (entry : e.runs[r]? = some run)
      (decorated : e.jobs[run.job]? = some job)
      (walked : e.Walked e' r run job run' job' signs)
  | activate
      {j : JobId}
      (there : j < e.jobs.length)
      (runs : e'.runs = e.runs ++ [e.activation j])
      (jobs : e'.jobs = e.jobs)
      (tally : ∀ s key, s.key? = some key →
        e'.tally s = e.tally s + [Sign.figure (.activations (e.jobKey j))].count s)
  | aside
      (more : List Job)
      (runs : e'.runs = e.runs)
      (jobs : e'.jobs = e.jobs ++ more)
      (made : ∀ job ∈ more, job.layers = c.layers)
      (tally : ∀ s key, s.key? = some key → e'.tally s = e.tally s)

theorem turnover_of_quiet
    (runs : e'.runs = e.runs)
    (jobs : e'.jobs = e.jobs)
    (tally : ∀ s key, s.key? = some key → e'.tally s = e.tally s) :
    Turnover c e e' :=
  .aside [] runs (by rw [jobs, List.append_nil]) (by simp) tally

theorem turnover_of_mem_moves
    {m : Mover}
    (staffed : Staffed c e)
    (h : e' ∈ e.moves m) :
    Turnover c e e' := by
  cases m with
  | run r =>
      obtain ⟨run, -, hrun, -⟩ := runStep_of_mem_runMoves h
      have hjob := List.getElem?_eq_getElem (staffed.housed run (List.mem_of_getElem? hrun))
      obtain ⟨run', job', signs, hwalked⟩ := walked_of_mem_runMoves hrun hjob h
      exact .walk hrun hjob hwalked
  | timer n =>
      obtain ⟨t, t', ht, hdriven⟩ := driven_of_mem_timerMoves h
      have htally := fun s key (hs : Sign.key? s = some key) =>
        tally_of_mem_timerMoves ht h (Sign.ne_gauge hs) (Sign.ne_fault hs)
      have hruns := hdriven.runs
      unfold launches at hruns
      unfold activationSigns at htally
      cases hphase : t.phase with
      | counted i =>
          rw [hphase] at hruns htally
          exact .activate (staffed.armed n t ht) hruns hdriven.jobs htally
      | idle | fresh | resting | waiting | asking | armed | woken | finished =>
          rw [hphase] at hruns htally
          exact turnover_of_quiet (hruns.trans (List.append_nil _)) hdriven.jobs htally
  | waiter n =>
      obtain ⟨hruns, hjobs⟩ := same_of_mem_waiterMoves h
      exact turnover_of_quiet hruns hjobs fun s key hs =>
        tally_of_mem_waiterMoves h (Sign.ne_gauge hs)

/-- **What service does to runs, jobs and figures.** -/
theorem Serve.turnover
    (h : Serve c e e')
    (staffed : Staffed c e) :
    Turnover c e e' := by
  have hsame : ∀ s key, s.key? = some key → e.tally s = e.tally s := fun _ _ _ => rfl
  cases h with
  | tick h =>
      cases h with
      | move m h => exact turnover_of_mem_moves staffed h
      | clock | line | wait => exact turnover_of_quiet rfl rfl fun s _ _ => by cases s <;> rfl
  | exhaust | giveUp | cancel | startEngine | stopEngine =>
      exact turnover_of_quiet rfl rfl fun s _ _ => by cases s <;> rfl
  | close n =>
      rcases e.close_eq n with hEq | ⟨t, hEq⟩ <;> rw [hEq]
      · exact turnover_of_quiet rfl rfl fun _ _ _ => rfl
      · exact turnover_of_quiet rfl rfl fun s _ _ => by cases s <;> rfl
  | rearm s =>
      unfold Executor.rearm
      split
      · exact turnover_of_quiet rfl rfl fun s _ _ => by cases s <;> rfl
      · exact turnover_of_quiet rfl rfl fun _ _ _ => rfl
  | note event plain =>
      refine turnover_of_quiet rfl rfl fun s key hs => ?_
      show (e.noteAll [event]).tally s = e.tally s
      exact e.tally_noteAll_of_plain hs (by simpa using plain)
  | enlist key value script schedule driven =>
      refine .aside [_] rfl rfl ?_ fun s _ _ => by cases s <;> rfl
      intro job hjob
      rw [List.mem_singleton.1 hjob]
      rfl

/-- Service keeps runs and timers with their jobs, and jobs with their chain. -/
theorem Staffed.serve
    (staffed : Staffed c e)
    (orderly : e.Orderly)
    (h : Serve c e e') :
    Staffed c e' := by
  have hlater := Befell.later h.befell
  refine ⟨?_, ?_, ?_⟩
  · intro run hrun
    refine Nat.lt_of_lt_of_le ?_ hlater.jobs
    cases h.turnover staffed with
    | walk entry decorated walked =>
        rw [walked.runs] at hrun
        rcases List.mem_or_eq_of_mem_set hrun with hold | rfl
        · exact staffed.housed run hold
        · rw [walked.walk.job]
          exact staffed.housed _ (List.mem_of_getElem? entry)
    | activate there runs =>
        rw [runs] at hrun
        rcases List.mem_append.1 hrun with hold | hnew
        · exact staffed.housed run hold
        · rw [List.mem_singleton.1 hnew]
          exact there
    | aside more runs => exact staffed.housed run (runs ▸ hrun)
  · cases h with
    | tick h => exact hlater.armedForJobs h.drift.length_timers staffed.armed
    | exhaust n => exact hlater.armedForJobs (List.length_modify ..) staffed.armed
    | close n => exact hlater.armedForJobs (e.length_timers_close n) staffed.armed
    | rearm s =>
        exact hlater.armedForJobs (congrArg List.length (e.quiet_rearm s).timers) staffed.armed
    | giveUp | cancel | startEngine | stopEngine | note =>
        exact hlater.armedForJobs rfl staffed.armed
    | enlist key value script schedule driven =>
        intro n t ht
        rcases getElem?_concat_cases ht with hold | ⟨-, rfl⟩
        · exact Nat.lt_of_lt_of_le (staffed.armed n t hold) hlater.jobs
        · show e.jobs.length < (e.jobs ++ [_]).length
          rw [List.length_append]
          exact Nat.lt_succ_self _
  · intro job hjob
    cases h.turnover staffed with
    | @walk r run run' own own' signs entry decorated walked =>
        rw [walked.jobs] at hjob
        rcases List.mem_or_eq_of_mem_set hjob with hold | rfl
        · exact staffed.chains job hold
        · have hfits := orderly.fits run (List.mem_of_getElem? entry) own decorated
          rw [(walked.walk.fits hfits).1]
          exact staffed.chains own (List.mem_of_getElem? decorated)
    | activate there runs jobs => exact staffed.chains job (jobs ▸ hjob)
    | aside more runs jobs made =>
        rw [jobs] at hjob
        rcases List.mem_append.1 hjob with hold | hnew
        · exact staffed.chains job hold
        · rw [Job.chain, made job hnew, Chain.map_wrapper_layers]

/-- Something that no run counts, and no timer, is never counted. -/
theorem Turnover.tally_of_unsigned
    (h : Turnover c e e')
    {s : Sign}
    {key : String}
    (hs : s.key? = some key)
    (activation : ∀ key, s ≠ .figure (.activations key))
    (unsigned : ∀ {r run run' job job' signs}, e.runs[r]? = some run →
      e.jobs[run.job]? = some job → e.Walk r run job run' job' signs → s ∉ signs) :
    e'.tally s = e.tally s := by
  cases h with
  | walk entry decorated walked =>
      have hnot := unsigned entry decorated walked.walk
      rw [walked.tally s (Sign.ne_gauge hs), List.count_eq_zero_of_not_mem hnot, Nat.add_zero]
  | activate there runs jobs tally =>
      rw [tally s key hs, List.count_eq_zero_of_not_mem (by simp [activation]), Nat.add_zero]
  | aside more runs jobs made tally => exact tally s key hs

/-- A run is skipped by a layer that skips. -/
theorem Walk.skip_mem
    {r : RunId}
    {run run' : Run}
    {job job' : Job}
    {signs : List Sign}
    {key : String}
    (h : e.Walk r run job run' job' signs)
    (hs : .figure (.skips key) ∈ signs) :
    .skip ∈ job.chain := by
  cases h with
  | skip control layer => exact List.mem_of_getElem? (Job.chain_getElem? layer)
  | @bar o => rcases o with _ | ⟨message, _ | _⟩ <;> simp [Outcome.endSigns] at hs
  | enter | miss | join | take | letIn | call | wake | proceed | answer | burst | rescue
  | overflow | settle | pause | again | stop | pass | unwind | finish | escape => simp at hs

/-- A run is sent on its way again by a layer that repeats. -/
theorem Walk.retry_mem
    {r : RunId}
    {run run' : Run}
    {job job' : Job}
    {signs : List Sign}
    {key : String}
    (h : e.Walk r run job run' job' signs)
    (fits : job.chain.Fits run.stack)
    (hs : .figure (.retries key) ∈ signs) :
    ∃ signal limit interval, .retry signal limit interval ∈ job.chain := by
  cases h with
  | again control stack =>
      rw [stack] at fits
      obtain ⟨⟨w, hw, hfits⟩, -⟩ := fits
      cases w <;> simp [Wrapper.fits] at hfits
      exact ⟨_, _, _, List.mem_of_getElem? hw⟩
  | @bar o => rcases o with _ | ⟨message, _ | _⟩ <;> simp [Outcome.endSigns] at hs
  | enter | skip | miss | join | take | letIn | call | wake | proceed | answer | burst | rescue
  | overflow | settle | pause | stop | pass | unwind | finish | escape => simp at hs

/-- The outermost wrapper of a chain is a fault barrier, and the only one. -/
def BarredOnce (c : Chain) : Prop :=
  ∃ inner, c = .recover :: inner ∧ .recover ∉ inner

/-- The books of a registry in service: everything has its place, the accounts balance, and
figures for which the chain has no wrapper stay at nothing. -/
structure Booked
    (c : Chain)
    (e : Executor) :
    Prop where
  staffed : Staffed c e
  orderly : e.Orderly
  barriers : e.Barriers
  calls : Account.calls.Balanced e
  durations : BarredOnce c → Account.durations.Balanced e
  skips : .skip ∉ c → ∀ key, e.tally (.figure (.skips key)) = 0
  retries : (∀ signal limit interval, .retry signal limit interval ∉ c) →
    ∀ key, e.tally (.figure (.retries key)) = 0

/-- **Service keeps the books.** -/
theorem Booked.serve
    (booked : Booked c e)
    (h : Serve c e e') :
    Booked c e' := by
  obtain ⟨hstaffed, horderly, hbarriers, hcalls, hdurations, hskips, hretries⟩ := booked
  have hlater := Befell.later h.befell
  have hturnover := h.turnover hstaffed
  refine ⟨hstaffed.serve horderly h, horderly.befell h.befell,
    hbarriers.befell horderly h.befell, ?_, ?_, ?_, ?_⟩
  · cases hturnover with
    | walk entry decorated walked =>
        exact balanced_walked Account.keyed_calls hcalls hstaffed.housed hlater entry decorated
          walked (fun s => walked.walk.signed) walked.walk.owesCall
    | activate there runs jobs tally =>
        exact balanced_activated Account.keyed_calls Account.opens_calls hcalls hstaffed.housed
          hlater there runs tally
    | aside more runs jobs made tally =>
        exact balanced_aside Account.keyed_calls hcalls hstaffed.housed hlater runs tally
  · intro barred
    cases hturnover with
    | @walk r run run' job job' signs entry decorated walked =>
        obtain ⟨inner, hchain, honce⟩ := barred
        have hjob := (hstaffed.chains job (List.mem_of_getElem? decorated)).trans hchain
        have hmem := List.mem_of_getElem? entry
        have hsheltered := hbarriers run hmem job decorated (congrArg List.head? hjob)
        exact balanced_walked Account.keyed_durations (hdurations ⟨inner, hchain, honce⟩)
          hstaffed.housed hlater entry decorated walked (fun s => walked.walk.signed)
          (walked.walk.owesDuration (horderly.fits run hmem job decorated) hjob honce hsheltered)
    | activate there runs jobs tally =>
        exact balanced_activated Account.keyed_durations Account.opens_durations
          (hdurations barred) hstaffed.housed hlater there runs tally
    | aside more runs jobs made tally =>
        exact balanced_aside Account.keyed_durations (hdurations barred) hstaffed.housed hlater
          runs tally
  · intro noSkip key
    refine Eq.trans (hturnover.tally_of_unsigned rfl (by simp) ?_) (hskips noSkip key)
    intro r run run' job job' signs _ decorated hwalk hs
    refine noSkip ?_
    rw [← hstaffed.chains job (List.mem_of_getElem? decorated)]
    exact hwalk.skip_mem hs
  · intro noRetry key
    refine Eq.trans (hturnover.tally_of_unsigned rfl (by simp) ?_) (hretries noRetry key)
    intro r run run' job job' signs entry decorated hwalk hs
    obtain ⟨signal, limit, interval, hmem⟩ :=
      hwalk.retry_mem (horderly.fits run (List.mem_of_getElem? entry) job decorated) hs
    rw [hstaffed.chains job (List.mem_of_getElem? decorated)] at hmem
    exact noRetry _ _ _ hmem

theorem Booked.serves
    (booked : Booked c e)
    (h : Serves c e e') :
    Booked c e' := by
  induction h with
  | refl => exact booked
  | tail _ hserve ih => exact ih.serve hserve

end Executor

end Timetable
