import Timetable.Proofs.Executor.Barrier
import Timetable.Proofs.Schedule.Texts

/-!
# Accounts of a key

What is counted under a key is counted at one place each: an activation where the engine
starts a run, a call and a skip where a run comes to an end of its way in, a repetition
where a run is sent on its way again, a duration where a run comes out of the barrier.
An account puts what is counted in and what is counted out against each other; the
difference is what the runs of the key still owe.

Main results:

* a timer counts an activation with the run that it starts, and nothing else but what its
  schedule counts (tally_of_mem_timerMoves);
* a run on its way in owes a call (Walk.owesCall), and one that has not come out of a
  single barrier owes a duration (Walk.owesDuration);
* an account balances after a move if the run that has moved owes what the move has
  counted (balanced_walked).
-/

namespace Timetable

/-- The key that a figure is about. -/
def Metric.key? : Metric → Option String
  | activations key => some key
  | failures key => some key
  | panics key => some key
  | skips key => some key
  | retries key => some key
  | runDurations key => some key
  | _ => none

/-- The key whose figure the event touches. -/
def Event.key? (event : Event) : Option String :=
  event.metric?.bind Metric.key?

/-- The key under which something is counted. -/
def Sign.key? : Sign → Option String
  | figure m => m.key?
  | call key => some key

/-- What is counted under a key is not the gauge of the runs in progress. -/
theorem Sign.ne_gauge
    {s : Sign}
    {key : String}
    (h : s.key? = some key) :
    s ≠ .figure .inFlightRuns := by
  rintro rfl
  cases h

/-- Nor is it a count of faults. -/
theorem Sign.ne_fault
    {s : Sign}
    {key : String}
    (h : s.key? = some key)
    (code : Code) :
    s ≠ .figure (.faults code) := by
  rintro rfl
  cases h

/-- A fault is about no key. -/
theorem Event.key?_of_fault
    {event : Event}
    (h : event.metric? = none ∨ ∃ f : Fault, event = f.counted) :
    event.key? = none := by
  rcases h with h | ⟨f, rfl⟩
  · rw [Event.key?, h]
    rfl
  · rfl

namespace Executor

section Tallies

variable {e e' : Executor} {s : Sign} {key : String}

/-- Events that are about no key count nothing under one. -/
theorem tally_noteAll_of_plain
    (e : Executor)
    (hs : s.key? = some key)
    {events : List Event}
    (plain : ∀ event ∈ events, event.key? = none) :
    (e.noteAll events).tally s = e.tally s := by
  cases s with
  | call => rfl
  | figure m =>
      refine Journal.value_noteAll_of_untouched ?_ e.journal
      intro event hevent hm
      have hnone := plain event hevent
      rw [Event.key?, hm] at hnone
      cases hnone.symm.trans hs

/-- Events that count faults at most count nothing else. -/
theorem tally_noteAll_of_faults
    (e : Executor)
    (faultless : ∀ code, s ≠ .figure (.faults code))
    {events : List Event}
    (faults : ∀ event ∈ events, event.metric? = none ∨ ∃ f : Fault, event = f.counted) :
    (e.noteAll events).tally s = e.tally s := by
  cases s with
  | call => rfl
  | figure m =>
      refine Journal.value_noteAll_of_untouched ?_ e.journal
      intro event hevent hm
      rcases faults event hevent with hnone | ⟨f, rfl⟩
      · rw [hnone] at hm
        cases hm
      · exact faultless f.code (congrArg Sign.figure (Option.some.inj hm).symm)

/-- What a timer counts in its next move. -/
def activationSigns
    (e : Executor)
    (t : Timer) :
    List Sign :=
  match t.phase with
  | .counted _ => [.figure (.activations (e.jobKey t.job))]
  | _ => []

/-- **A timer counts an activation when it starts its run, and nothing else** but what its
schedule counts when it is asked. -/
theorem tally_of_mem_timerMoves
    {n : Nat}
    {t : Timer}
    (ht : e.timers[n]? = some t)
    (h : e' ∈ e.timerMoves n)
    (hs : s ≠ .figure .inFlightRuns)
    (faultless : ∀ code, s ≠ .figure (.faults code)) :
    e'.tally s = e.tally s + (e.activationSigns t).count s := by
  have hset : ∀ {e₁ : Executor} {t' : Timer}, (∀ i, t.phase ≠ .counted i) →
      e₁.tally s = e.tally s →
      (e₁.setTimer n t').tally s = e.tally s + (e.activationSigns t).count s := by
    intro e₁ t' hphase hsame
    have hnone : e.activationSigns t = [] := by
      unfold activationSigns
      split
      · rename_i i hcounted
        exact absurd hcounted (hphase i)
      · rfl
    rw [hnone, List.count_nil, Nat.add_zero, ← hsame]
    cases s <;> rfl
  unfold timerMoves at h
  simp only [ht] at h
  cases hphase : t.phase with
  | idle | finished => simp [hphase] at h
  | fresh | resting =>
      simp only [hphase, List.mem_singleton] at h
      rw [h]
      exact hset (by simp [hphase]) rfl
  | waiting paused =>
      simp only [hphase] at h
      split at h
      · rw [List.mem_singleton.1 h]
        exact hset (by simp [hphase]) rfl
      · obtain ⟨-, rfl⟩ := mem_guarded_iff.1 h
        exact hset (by simp [hphase]) rfl
  | asking =>
      simp only [hphase, List.mem_singleton] at h
      have hasked := e.tally_noteAll_of_faults faultless fun event hevent =>
        Schedule.fault_of_mem_ask (s := t.schedule) (q := .next) (i := t.previous) hevent
      rw [h, askTimer]
      dsimp only
      split
      · exact hset (by simp [hphase]) hasked
      · exact hset (by simp [hphase]) ((tally_note _ hs rfl).trans hasked)
      · exact hset (by simp [hphase]) hasked
  | armed i due =>
      simp only [hphase, armedMoves, List.mem_append] at h
      rcases h with h | h
      all_goals
        obtain ⟨-, rfl⟩ := mem_guarded_iff.1 h
        exact hset (by simp [hphase]) rfl
  | woken i =>
      simp only [hphase, List.mem_singleton] at h
      rw [h, checkTimer]
      split
      · exact hset (by simp [hphase]) (e.tally_enter hs _)
      · exact hset (by simp [hphase]) rfl
  | counted i =>
      simp only [hphase, List.mem_singleton] at h
      have hsigns : e.activationSigns t = [.figure (.activations (e.jobKey t.job))] := by
        rw [activationSigns, hphase]
      rw [h, hsigns, ← e.tally_count]
      cases s <;> rfl

theorem tally_of_mem_waiterMoves
    {n : Nat}
    (h : e' ∈ e.waiterMoves n)
    (hs : s ≠ .figure .inFlightRuns) :
    e'.tally s = e.tally s := by
  unfold waiterMoves at h
  split at h
  · cases h
  · split at h
    · cases h
    · obtain ⟨-, rfl⟩ := mem_guarded_iff.1 h
      cases s <;> rfl
    · rename_i w _ _ _
      rw [List.mem_singleton.1 h]
      refine (tally_noteAll _ hs ?_).trans (by cases s <;> rfl)
      intro event hevent m hm
      obtain ⟨line, -, rfl⟩ := Option.map_eq_some_iff.1 (Option.mem_toList.1 hevent)
      cases hm

end Tallies

/-- The sum of the tallies of some signs. -/
def total
    (e : Executor)
    (signs : List Sign) :
    Nat :=
  (signs.map e.tally).sum

/-- How much the runs of a key owe together. -/
def owed
    (e : Executor)
    (debt : Run → Nat)
    (key : String) :
    Nat :=
  (e.runs.map fun run => if e.jobKey run.job = key then debt run else 0).sum

end Executor

/-- What is put in and taken out under a key, and what a run owes in between. -/
structure Account where
  debt : Run → Nat
  incoming : String → List Sign
  outgoing : String → List Sign

namespace Account

variable {a : Account} {e e' : Executor}

/-- All that has come in has gone out, or is owed by a run. -/
def Balanced
    (a : Account)
    (e : Executor) :
    Prop :=
  ∀ key, e.total (a.outgoing key) + e.owed a.debt key = e.total (a.incoming key)

/-- Everything on the account is counted under the key. -/
def Keyed (a : Account) : Prop :=
  ∀ key, ∀ s ∈ a.incoming key ++ a.outgoing key, s.key? = some key

/-- A move settles its accounts under a key: what it takes out and what the run owes after it are
what the run owed before and what the move puts in. -/
def Settles
    (a : Account)
    (key : String)
    (signs : List Sign)
    (run run' : Run) :
    Prop :=
  ((a.outgoing key).map fun s => signs.count s).sum + a.debt run' =
    a.debt run + ((a.incoming key).map fun s => signs.count s).sum

/-- A run that is started owes what its activation puts in. -/
def Opens (a : Account) : Prop :=
  ∀ (key : String) (run : Run), run.Unmoved →
    ((a.outgoing key).map fun s => [Sign.figure (.activations key)].count s).sum + a.debt run =
      ((a.incoming key).map fun s => [Sign.figure (.activations key)].count s).sum

/-- Signs under another key do not touch the account. -/
theorem sum_count_of_key_ne
    {signs side : List Sign}
    {key other : String}
    (keyed : ∀ s ∈ signs, s.key? = some other)
    (sided : ∀ s ∈ side, s.key? = some key)
    (h : other ≠ key) :
    (side.map fun s => signs.count s).sum = 0 := by
  refine List.sum_eq_zero fun n hn => ?_
  obtain ⟨s, hs, rfl⟩ := List.mem_map.1 hn
  refine List.count_eq_zero_of_not_mem fun hmem => h ?_
  exact Option.some.inj ((keyed s hmem).symm.trans (sided s hs))

theorem Keyed.incoming
    (keyed : a.Keyed)
    {key : String}
    {s : Sign}
    (h : s ∈ a.incoming key) :
    s.key? = some key :=
  keyed key s (List.mem_append_left _ h)

theorem Keyed.outgoing
    (keyed : a.Keyed)
    {key : String}
    {s : Sign}
    (h : s ∈ a.outgoing key) :
    s.key? = some key :=
  keyed key s (List.mem_append_right _ h)

end Account

namespace Executor

variable {e e' : Executor} {a : Account} {key : String}

theorem total_add
    (side : List Sign)
    {more : Sign → Nat}
    (h : ∀ s ∈ side, e'.tally s = e.tally s + more s) :
    e'.total side = e.total side + (side.map more).sum := by
  rw [total, List.map_congr_left h, List.sum_map_add, total]

/-- Every run has a job. -/
def Housed (e : Executor) : Prop :=
  ∀ run ∈ e.runs, run.job < e.jobs.length

theorem owed_eq
    (later : e.Later e')
    (jobs : ∀ run ∈ e'.runs, run.job < e.jobs.length)
    (debt : Run → Nat)
    (key : String) :
    e'.owed debt key =
      (e'.runs.map fun run => if e.jobKey run.job = key then debt run else 0).sum := by
  unfold owed
  refine congrArg List.sum (List.map_congr_left fun run hrun => ?_)
  rw [later.keys _ (jobs run hrun)]

/-- **An account balances after a move, if the run that has moved owes what the move has
counted.** -/
theorem balanced_walked
    {r : RunId}
    {run run' : Run}
    {job job' : Job}
    {signs : List Sign}
    (keyed : a.Keyed)
    (balanced : a.Balanced e)
    (housed : e.Housed)
    (later : e.Later e')
    (entry : e.runs[r]? = some run)
    (decorated : e.jobs[run.job]? = some job)
    (walked : e.Walked e' r run job run' job' signs)
    (signed : ∀ s ∈ signs, s.key? = some job.task.key)
    (settles : a.Settles job.task.key signs run run') :
    a.Balanced e' := by
  intro key
  have hjobs : ∀ other ∈ e'.runs, other.job < e.jobs.length := by
    intro other hother
    rw [walked.runs] at hother
    rcases List.mem_or_eq_of_mem_set hother with hold | rfl
    · exact housed other hold
    · rw [walked.walk.job]
      exact housed run (List.mem_of_getElem? entry)
  have hkey : e.jobKey run.job = job.task.key := by
    rw [jobKey, decorated]
    rfl
  have howed := sum_map_set (f := fun run => if e.jobKey run.job = key then a.debt run else 0)
    (b := run') entry
  rw [← walked.runs, ← owed_eq later hjobs a.debt key, walked.walk.job, hkey] at howed
  change _ = e.owed a.debt key + _ at howed
  have hout := total_add (a.outgoing key) fun s hs =>
    walked.tally s (Sign.ne_gauge (keyed.outgoing hs))
  have hin := total_add (a.incoming key) fun s hs =>
    walked.tally s (Sign.ne_gauge (keyed.incoming hs))
  have hbalance := balanced key
  rw [hout, hin]
  by_cases hk : job.task.key = key
  · rw [hk] at settles
    simp only [hk, if_true] at howed
    unfold Account.Settles at settles
    omega
  · rw [if_neg hk, if_neg hk] at howed
    rw [Account.sum_count_of_key_ne signed (fun s hs => keyed.outgoing hs) hk,
      Account.sum_count_of_key_ne signed (fun s hs => keyed.incoming hs) hk]
    omega

/-- An account balances after an activation. -/
theorem balanced_activated
    {j : JobId}
    (keyed : a.Keyed)
    (opens : a.Opens)
    (balanced : a.Balanced e)
    (housed : e.Housed)
    (later : e.Later e')
    (there : j < e.jobs.length)
    (runs : e'.runs = e.runs ++ [e.activation j])
    (tally : ∀ s key, s.key? = some key →
      e'.tally s = e.tally s + [Sign.figure (.activations (e.jobKey j))].count s) :
    a.Balanced e' := by
  intro key
  have hjobs : ∀ other ∈ e'.runs, other.job < e.jobs.length := by
    intro other hother
    rw [runs] at hother
    rcases List.mem_append.1 hother with hold | hnew
    · exact housed other hold
    · rw [List.mem_singleton.1 hnew]
      exact there
  have howed := owed_eq later hjobs a.debt key
  rw [runs, List.map_append, List.sum_append, List.map_singleton, List.sum_singleton] at howed
  change _ = e.owed a.debt key + (if e.jobKey j = key then a.debt (e.activation j) else 0) at howed
  have hout := total_add (a.outgoing key) fun s hs => tally s key (keyed.outgoing hs)
  have hin := total_add (a.incoming key) fun s hs => tally s key (keyed.incoming hs)
  have hopens := opens key (e.activation j) ⟨rfl, _, rfl⟩
  have hbalance := balanced key
  rw [hout, hin, howed]
  by_cases hk : e.jobKey j = key
  · rw [hk, if_pos rfl]
    omega
  · have hsigned : ∀ s ∈ [Sign.figure (.activations (e.jobKey j))],
        s.key? = some (e.jobKey j) := by
      intro s hs
      rw [List.mem_singleton.1 hs]
      rfl
    rw [if_neg hk, Account.sum_count_of_key_ne hsigned (fun s hs => keyed.outgoing hs) hk,
      Account.sum_count_of_key_ne hsigned (fun s hs => keyed.incoming hs) hk]
    omega

/-- An account balances as long as nothing is counted on it and no run moves. -/
theorem balanced_aside
    (keyed : a.Keyed)
    (balanced : a.Balanced e)
    (housed : e.Housed)
    (later : e.Later e')
    (runs : e'.runs = e.runs)
    (tally : ∀ s key, s.key? = some key → e'.tally s = e.tally s) :
    a.Balanced e' := by
  intro key
  have howed := owed_eq later (by rw [runs]; exact housed) a.debt key
  have hsame : ∀ side : List Sign, (∀ s ∈ side, s.key? = some key) →
      e'.total side = e.total side := fun side hside =>
    congrArg List.sum (List.map_congr_left fun s hs => tally s key (hside s hs))
  rw [runs] at howed
  rw [howed, hsame _ fun s hs => keyed.outgoing hs, hsame _ fun s hs => keyed.incoming hs]
  exact balanced key

end Executor

/-- How many calls a run owes: one, while it is on its way in. -/
def Run.callsOwed (run : Run) : Nat :=
  match run.control with
  | .entering _ => 1
  | .joining _ => 1
  | .queued _ => 1
  | _ => 0

/-- How many durations a run behind a barrier owes: one, until it has come out. -/
def Run.durationsOwed (run : Run) : Nat :=
  if run.stack = [] ∧ run.control.outcome?.isSome = true then 0 else 1

namespace Account

/-- Activations and repetitions come in, calls and skips go out. -/
def calls : Account where
  debt := Run.callsOwed
  incoming key := [.figure (.activations key), .figure (.retries key)]
  outgoing key := [.call key, .figure (.skips key)]

/-- Activations come in, durations go out. -/
def durations : Account where
  debt := Run.durationsOwed
  incoming key := [.figure (.activations key)]
  outgoing key := [.figure (.runDurations key)]

theorem keyed_calls : calls.Keyed := by
  intro key s hs
  simp only [calls, List.cons_append, List.nil_append, List.mem_cons, List.not_mem_nil,
    or_false] at hs
  rcases hs with rfl | rfl | rfl | rfl <;> rfl

theorem keyed_durations : durations.Keyed := by
  intro key s hs
  simp only [durations, List.cons_append, List.nil_append, List.mem_cons, List.not_mem_nil,
    or_false] at hs
  rcases hs with rfl | rfl <;> rfl

theorem opens_calls : calls.Opens := by
  rintro key run ⟨-, ctx, hcontrol⟩
  simp [calls, Run.callsOwed, hcontrol]

theorem opens_durations : durations.Opens := by
  rintro key run ⟨-, ctx, hcontrol⟩
  simp [durations, Run.durationsOwed, hcontrol, Control.outcome?]

end Account

namespace Executor

variable {e : Executor} {r : RunId} {run run' : Run} {job job' : Job} {signs : List Sign}

/-- What a run counts it counts under the key of its job. -/
theorem Walk.signed
    (h : e.Walk r run job run' job' signs)
    {s : Sign}
    (hs : s ∈ signs) :
    s.key? = some job.task.key := by
  cases h with
  | @bar o =>
      rcases o with _ | ⟨message, _ | _⟩ <;>
        simp only [Outcome.endSigns, List.mem_cons, List.not_mem_nil, or_false] at hs
      · rw [hs]
        rfl
      · rcases hs with rfl | rfl <;> rfl
      · rw [hs]
        rfl
  | skip | call | rescue | again =>
      simp only [List.mem_cons, List.not_mem_nil, or_false] at hs
      rcases hs with rfl | rfl <;> rfl
  | enter | miss | join | take | letIn | wake | proceed | answer | burst | overflow | settle
  | pause | stop | pass | unwind | finish | escape => cases hs

/-- **A run on its way in owes a call**: it pays by calling or by being skipped, and owes another
one when it is sent on its way again. -/
theorem Walk.owesCall
    (h : e.Walk r run job run' job' signs) :
    Account.calls.Settles job.task.key signs run run' := by
  cases h with
  | call control =>
      cases hsleep : (job.task.script job.task.calls e.calls.length).sleep <;>
        simp [Account.Settles, Account.calls, Run.callsOwed, control, callControl, hsleep]
  | @bar o _ control =>
      rcases o with _ | ⟨message, _ | _⟩ <;>
        simp [Account.Settles, Account.calls, Run.callsOwed, control, Outcome.endSigns]
  | enter control | skip control | miss control | join control | take control | letIn control
  | wake control | proceed control | answer control | burst control | rescue control
  | overflow control | settle control | pause control | again control | stop control
  | pass control | unwind control | finish control | escape control =>
      simp [Account.Settles, Account.calls, Run.callsOwed, control]

theorem durationsOwed_of_inside (h : run.stack ≠ []) : run.durationsOwed = 1 :=
  if_neg fun hout => h hout.1

theorem durationsOwed_of_none (h : run.control.outcome? = none) : run.durationsOwed = 1 :=
  if_neg fun hout => by simp [h] at hout

/-- A move between two places where a run owes a duration counts none, nor an activation. -/
theorem settles_of_owed
    {key : String}
    (owed : run.durationsOwed = 1)
    (owed' : run'.durationsOwed = 1)
    (durations : ∀ key, Sign.figure (.runDurations key) ∉ signs)
    (activations : ∀ key, Sign.figure (.activations key) ∉ signs) :
    Account.durations.Settles key signs run run' := by
  simp [Account.Settles, Account.durations, owed, owed',
    List.count_eq_zero_of_not_mem (durations _), List.count_eq_zero_of_not_mem (activations _)]

/-- The frame of a single barrier has no frame around it. -/
theorem frames_eq_nil_of_once
    {c : Chain}
    (fits : job.chain.Fits run.stack)
    (chain : job.chain = .recover :: c)
    (once : .recover ∉ c)
    {frames : List Frame}
    (stack : run.stack = .recover :: frames) :
    frames = [] := by
  rw [stack, chain] at fits
  obtain ⟨⟨w, hw, hfits⟩, -⟩ := fits
  cases frames with
  | nil => rfl
  | cons f frames =>
      rw [List.length_cons, List.getElem?_cons_succ] at hw
      refine absurd (List.mem_of_getElem? hw) ?_
      cases w <;> simp [Wrapper.fits] at hfits
      exact once

/-- **A run that has not come out of a single barrier owes a duration**, which it pays when it
comes out. -/
theorem Walk.owesDuration
    {c : Chain}
    (h : e.Walk r run job run' job' signs)
    (fits : job.chain.Fits run.stack)
    (chain : job.chain = .recover :: c)
    (once : .recover ∉ c)
    (sheltered : run.Sheltered) :
    Account.durations.Settles job.task.key signs run run' := by
  have hbarred : job.Barred := congrArg List.head? chain
  cases h with
  | enter control | take control | letIn control | again control =>
      exact settles_of_owed (durationsOwed_of_none (by rw [control]; rfl))
        (durationsOwed_of_inside (by simp)) (by simp) (by simp)
  | pause control stack =>
      exact settles_of_owed (durationsOwed_of_inside (by simp [stack]))
        (durationsOwed_of_inside (by simp)) (by simp) (by simp)
  | miss control | join control | wake control | proceed control | burst control | escape control =>
      exact settles_of_owed (durationsOwed_of_none (by rw [control]; rfl))
        (durationsOwed_of_none rfl) (by simp) (by simp)
  | call control =>
      refine settles_of_owed (durationsOwed_of_none (by rw [control]; rfl))
        (durationsOwed_of_none ?_) (by simp) (by simp)
      cases hsleep : (job.task.script job.task.calls e.calls.length).sleep <;>
        simp [callControl, hsleep, Control.outcome?]
  | skip control layer =>
      have hstack : run.stack ≠ [] := by
        intro outside
        obtain ⟨last, hl⟩ := hbarred.layer outside
        rw [hl] at layer
        cases layer
      exact settles_of_owed (durationsOwed_of_inside hstack) (durationsOwed_of_inside hstack)
        (by simp) (by simp)
  | answer control =>
      have hstack := sheltered.inside (by simp [control]) (by rw [control]; rfl)
      exact settles_of_owed (durationsOwed_of_inside hstack) (durationsOwed_of_inside hstack)
        (by simp) (by simp)
  | overflow control stack | settle control stack | stop control stack =>
      exact settles_of_owed (durationsOwed_of_inside (by simp [stack]))
        (durationsOwed_of_inside (hbarred.frames_ne fits stack (by simp))) (by simp) (by simp)
  | pass control stack plain =>
      have hframe := hbarred.frames_ne fits stack (by rintro rfl; cases plain)
      exact settles_of_owed (durationsOwed_of_inside (by simp [stack]))
        (durationsOwed_of_inside hframe) (by simp) (by simp)
  | unwind control stack open' =>
      exact settles_of_owed (durationsOwed_of_inside (by simp [stack]))
        (durationsOwed_of_inside (hbarred.frames_ne fits stack open')) (by simp) (by simp)
  | finish control stack =>
      simp [Account.Settles, Account.durations, Run.durationsOwed, stack, control,
        Control.outcome?]
  | rescue control stack =>
      obtain rfl := frames_eq_nil_of_once fits chain once stack
      simp [Account.Settles, Account.durations, Run.durationsOwed, stack, Control.outcome?]
  | @bar o _ control stack =>
      obtain rfl := frames_eq_nil_of_once fits chain once stack
      rcases o with _ | ⟨message, _ | _⟩ <;>
        simp [Account.Settles, Account.durations, Run.durationsOwed, stack, Control.outcome?,
          Outcome.endSigns]

end Executor

end Timetable
