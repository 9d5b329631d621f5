import Timetable.Proofs.Executor.Closing
import Timetable.Proofs.Registry.Ownership

/-!
# After a removal

A handle is closed by somebody who has it, or by the registry: when its key is
removed, and when another job is added under its key.  What the engine may still
start for the job afterwards is the run of the activation that was pending.

Main results:

* each timer of a registry has a job of its own (separate_reaches);
* whoever closes a handle cancels the token of its timer and does nothing else to it
  (Closing.closes);
* once a handle has been closed, nothing is dispatched through it but what was
  pending, and not even that, if its timer waited and the clock goes on only while
  it cannot move (pending_at_most_of_closing).

What was pending may indeed be run: a timer whose activation is due when its handle is
closed may find the end of its sleep before it finds its token, and from there on it
asks only whether the engine runs (started_after_removal).
-/

namespace Timetable

namespace Executor

/-- Each timer has been armed for a job of its own, which there is. -/
structure Separate (e : Executor) : Prop where
  distinct : e.Distinct
  jobs : e.ArmedForJobs

theorem Separate.later
    {e e' : Executor}
    (h : e.Separate)
    (later : e.Later e')
    (length : e'.timers.length = e.timers.length) :
    e'.Separate := by
  refine ⟨?_, later.armedForJobs length h.jobs⟩
  have hbefore : ∀ (m : Nat) (t' : Timer), e'.timers[m]? = some t' →
      ∃ t, e.timers[m]? = some t ∧ t'.job = t.job := by
    intro m t' ht'
    have hm : m < e.timers.length := length ▸ (List.getElem?_eq_some_iff.1 ht').1
    obtain ⟨t'', ht'', hk⟩ := later.timers m _ (List.getElem?_eq_getElem hm)
    obtain rfl := Option.some.inj (ht'.symm.trans ht'')
    exact ⟨_, List.getElem?_eq_getElem hm, hk.job⟩
  intro m n t' u' ht' hu' hjob
  obtain ⟨t, ht, htj⟩ := hbefore m t' ht'
  obtain ⟨u, hu, huj⟩ := hbefore n u' hu'
  exact h.distinct m n t u ht hu (by rw [← htj, ← huj, hjob])

end Executor

namespace Registry

/-- A new timer is armed for a new job. -/
theorem separate_armed
    {g : Registry}
    (h : g.executor.Separate)
    (key : String)
    (value : Value)
    (script : Script)
    (schedule : Schedule) :
    (g.armed key value script schedule).executor.Separate := by
  obtain ⟨-, -, -, -, hjobs⟩ := g.armed_spec key value script schedule
  refine ⟨?_, hjobs h.jobs⟩
  obtain ⟨timer, htimers, htimer⟩ : ∃ timer : Timer,
      (g.armed key value script schedule).executor.timers = g.executor.timers ++ [timer] ∧
      timer.job = g.executor.jobs.length := ⟨_, rfl, rfl⟩
  have hnew : ∀ (m : Nat) (t : Timer), g.executor.timers[m]? = some t → t.job ≠ timer.job :=
    fun m t ht => htimer ▸ Nat.ne_of_lt (h.jobs m t ht)
  intro m n t u ht hu hjob
  rw [htimers] at ht hu
  rcases Executor.getElem?_concat_cases ht with ht | ⟨hm, httimer⟩
  · rcases Executor.getElem?_concat_cases hu with hu | ⟨-, hutimer⟩
    · exact h.distinct m n t u ht hu hjob
    · exact absurd (hutimer ▸ hjob) (hnew m t ht)
  · rcases Executor.getElem?_concat_cases hu with hu | ⟨hn, -⟩
    · exact absurd (httimer ▸ hjob.symm) (hnew n u hu)
    · rw [hm, hn]

theorem length_timers_replace
    (g : Registry)
    (key : String) :
    (g.replace key).executor.timers.length = g.executor.timers.length := by
  unfold Registry.replace
  split
  · rfl
  · exact g.executor.length_timers_close _

/-- Every step keeps the jobs of the timers apart. -/
theorem separate_step
    {g g' : Registry}
    (h : g.executor.Separate)
    (step : g.Step g') :
    g'.executor.Separate := by
  have hlater := step.acts.later
  cases step with
  | drift hdrift => exact h.later hlater hdrift.length_timers
  | giveUp | forget => exact h.later hlater rfl
  | start _ hdrifts =>
      refine h.later hlater (hdrifts.length_timers.trans ?_)
      rw [(g.executor.quiet_rearm g.signal).timers]
  | halt _ hdrifts => exact h.later hlater hdrifts.length_timers
  | @register key value script schedule e hdrifts =>
      have hreplaced : (g.replace key).executor.Separate :=
        h.later (g.changes_replace key).acts.later (g.length_timers_replace key)
      have hdrifted : ((g.replace key).within e).executor.Separate :=
        hreplaced.later hdrifts.later hdrifts.length_timers
      exact separate_armed hdrifted key value script schedule
  | remove key =>
      refine h.later hlater ?_
      unfold Registry.remove
      split
      · rfl
      · exact g.executor.length_timers_close _
  | contains key =>
      refine h.later hlater ?_
      unfold Registry.contains
      split
      · rfl
      · split <;> rfl

/-- **Each timer of a registry that began without timers has a job of its own.** -/
theorem separate_reaches
    {g g' : Registry}
    (timers : g.executor.timers = [])
    (reaches : g.Reaches g') :
    g'.executor.Separate := by
  induction reaches with
  | refl =>
      refine ⟨?_, ?_⟩
      · intro m n t u ht
        simp [timers] at ht
      · intro n t ht
        simp [timers] at ht
  | tail _ step ih => exact separate_step ih step

/-- The handle of a timer is closed by its holder, or by the registry that removes its key or
adds another job under it. -/
inductive Closing
    (g : Registry)
    (n : Nat) :
    Registry → Prop
  | close : Closing g n (g.onExecutor (·.close n))
  | remove
      {key : String}
      (owned : g.timer? key = some n) :
      Closing g n (g.remove key).2
  | add
      {key : String}
      {value : Value}
      {script : Script}
      {schedule : Schedule}
      (owned : g.timer? key = some n)
      (accepted : (g.add key value script schedule).1 = .ok ()) :
      Closing g n (g.add key value script schedule).2

/-- A job that is accepted is registered, after whatever the look at its schedule has noted. -/
theorem add_eq_register
    {g : Registry}
    {key : String}
    {value : Value}
    {script : Script}
    {schedule : Schedule}
    (accepted : (g.add key value script schedule).1 = .ok ()) :
    (g.add key value script schedule).2 =
      (g.onExecutor (·.noteAll schedule.validate.events)).register key value script
        schedule.validate.schedule := by
  unfold add at accepted ⊢
  split at accepted
  · simp at accepted
  · rename_i hkey
    rw [if_neg hkey]
    dsimp only at accepted ⊢
    split at accepted
    · simp at accepted
    · simp at accepted
    · rfl

variable {g g' : Registry} {n : Nat} {t : Timer}

/-- Registering a job under a key closes the timer of the key. -/
theorem closes_register
    {key : String}
    (known : g.executor.Known)
    (entry : g.executor.timers[n]? = some t)
    (owned : g.timer? key = some n)
    (value : Value)
    (script : Script)
    (schedule : Schedule) :
    g.executor.Closes (g.register key value script schedule).executor n t := by
  have hcloses := Executor.closes_close known entry
  have hreplace : (g.replace key).executor =
      (g.executor.close n).log .debug "Replaced previous registration" [("key", key)] none := by
    simp only [replace, owned]
    rfl
  obtain ⟨timer, htimers⟩ : ∃ timer, (g.register key value script schedule).executor.timers =
      (g.replace key).executor.timers ++ [timer] := ⟨_, rfl⟩
  have htokens : (g.register key value script schedule).executor.tokens =
      (g.replace key).executor.tokens.fresh.1.fresh.1 := rfl
  have hnow : (g.register key value script schedule).executor.now =
      (g.replace key).executor.now := rfl
  have hstarts : (g.register key value script schedule).executor.starts t.job =
      (g.replace key).executor.starts t.job := rfl
  rw [hreplace] at htimers htokens hnow hstarts
  have hn : n < (g.executor.close n).timers.length :=
    (List.getElem?_eq_some_iff.1 hcloses.timer).1
  refine ⟨?_, ?_, hnow.trans hcloses.now, hstarts.trans hcloses.starts⟩
  · rw [htimers]
    exact (List.getElem?_append_left hn).trans hcloses.timer
  · unfold Executor.isCancelled
    rw [htokens]
    exact (Tokens.later_fresh _).cancelled _
      ((Tokens.later_fresh _).cancelled _ hcloses.cancelled)

/-- Whoever closes a handle closes its timer. -/
theorem Closing.closes
    (closing : g.Closing n g')
    (known : g.executor.Known)
    (entry : g.executor.timers[n]? = some t) :
    g.executor.Closes g'.executor n t := by
  have hcloses := Executor.closes_close known entry
  cases closing with
  | close => exact hcloses
  | remove owned =>
      simp only [Registry.remove, owned]
      exact ⟨hcloses.timer, hcloses.cancelled, hcloses.now, hcloses.starts⟩
  | @add key value script schedule owned accepted =>
      rw [add_eq_register accepted]
      have hnoted : (g.onExecutor (·.noteAll schedule.validate.events)).executor.Known := known
      have hregister := closes_register hnoted entry owned value script
        schedule.validate.schedule
      exact ⟨hregister.timer, hregister.cancelled, hregister.now, hregister.starts⟩

/-- **Once a handle has been closed, nothing is dispatched through it but what was pending**,
in whatever order tasks move and whatever else happens: it is one more activation at most, and
the run of it is the only one that the engine still starts for the job, if the job is no other
timer's.  Not even that one is dispatched, if the timer waited when it was closed and the clock
goes on only while it cannot move. -/
theorem pending_at_most_of_closing
    {c₀ : Chain}
    {e₀ : Executor}
    (untouched : e₀.timers = [])
    (acts : Executor.Acts c₀ e₀ g.executor)
    (entry : g.executor.timers[n]? = some t)
    (closing : g.Closing n g') :
    (∀ c d, Executor.Acts c g'.executor d →
      ∃ l, g'.executor.Trail (Executor.Beside n) n l d ∧
        l.Sublist t.pending?.toList ∧
        (d.Distinct → d.starts t.job = g.executor.starts t.job + l.length)) ∧
      (g.executor.timerMoves n = [] →
        ∀ l d, g'.executor.Trail (Executor.Patient n) n l d → l = []) := by
  have hknown : g.executor.Known := by
    refine Executor.Known.acts ?_ acts
    intro u hu
    rw [untouched] at hu
    cases hu
  have hcloses := closing.closes hknown entry
  refine ⟨?_, ?_⟩
  · intro c d hacts
    obtain ⟨l, htrail, hsilent⟩ := Executor.trail_of_acts hacts n
    obtain ⟨u, -, -, hsub⟩ := Executor.sublist_of_trail hcloses.timer hcloses.cancelled htrail
    refine ⟨l, htrail, (List.sublist_append_left _ _).trans hsub, ?_⟩
    intro distinct
    obtain ⟨-, -, -, hstarts⟩ := Executor.starts_of_trail hcloses.timer (hsilent distinct)
    rw [← hcloses.starts]
    exact hstarts
  · intro still l d htrail
    refine Executor.eq_nil_of_patient hcloses.timer hcloses.cancelled ?_ htrail
    refine (Executor.calm_of_still entry still).imp id ?_
    rintro ⟨i, due, hphase, hnotYet⟩
    exact ⟨i, due, hphase, by rwa [Executor.nanos, hcloses.now]⟩

/-- The registry runs, and the timer of its job sleeps for another half a second. -/
def asleep : Registry :=
  (Operation.start.perform cleaning).onExecutor fun e => e.settle.passTo 500

theorem reaches_asleep : untouched.Reaches asleep := by
  have hstarted := (untouched.reaches_perform _).trans (cleaning.reaches_perform .start)
  exact hstarted.trans (reaches_of_drifts _
    ((Executor.drifts_settle _).trans (Executor.drifts_passUntil _ _ _)))

/-- What is removed while its timer sleeps may be run once more, and is not if time passes only
while the timer waits. -/
theorem pending_at_most_of_closing_asleep :
    untouched.executor.timers = [] ∧
      untouched.Reaches asleep ∧
      (∃ t, asleep.executor.timers[0]? = some t ∧ t.job = 0) ∧
      asleep.Closing 0 (asleep.remove "cleanup").2 ∧
      asleep.executor.timerMoves 0 = [] ∧
      (∀ h, (asleep.remove "cleanup").2.Reaches h → h.executor.starts 0 ≤ 1) ∧
      ∀ l d, (asleep.remove "cleanup").2.executor.Trail (Executor.Patient 0) 0 l d → l = [] := by
  have hentry : (asleep.executor.timers[0]?).any (fun t => t.job == 0) = true := by
    decide +kernel
  obtain ⟨t, ht, hjob⟩ := (Option.any_eq_true ..).1 hentry
  rw [beq_iff_eq] at hjob
  have hclosing : asleep.Closing 0 (asleep.remove "cleanup").2 := .remove (by decide +kernel)
  have hstill : asleep.executor.timerMoves 0 = [] :=
    List.isEmpty_iff.1 (by decide +kernel)
  have hbefore : asleep.executor.starts 0 = 0 := by decide +kernel
  obtain ⟨hpending, hpatient⟩ :=
    pending_at_most_of_closing rfl reaches_asleep.acts ht hclosing
  rw [hjob, hbefore] at hpending
  refine ⟨rfl, reaches_asleep, ⟨t, ht, hjob⟩, hclosing, hstill, ?_, hpatient hstill⟩
  intro h hreaches
  obtain ⟨l, -, hsub, hstarts⟩ := hpending _ _ hreaches.acts
  have hseparate : h.executor.Separate :=
    separate_reaches rfl (reaches_asleep.trans (.head (.remove _) hreaches))
  have hone := hsub.length_le.trans Option.length_toList_le
  have hcount := hstarts hseparate.distinct
  omega

/-- The first timer moves several times, each time by the move that is chosen among those it
has. -/
def choose : List Nat → Executor → Executor
  | [], e => e
  | k :: ks, e =>
      match (e.timerMoves 0)[k]? with
      | some e' => choose ks e'
      | none => e

theorem drifts_choose
    (ks : List Nat)
    (e : Executor) :
    e.Drifts (choose ks e) := by
  induction ks generalizing e with
  | nil => exact .refl
  | cons k ks ih =>
      unfold choose
      split
      · rename_i e' h
        exact .head (.move (.timer 0) (List.mem_of_getElem? h)) (ih e')
      · exact .refl

/-- The activation of the job is due, and its timer has not moved yet. -/
def due : Registry :=
  (Operation.start.perform cleaning).onExecutor fun e => e.settle.setClock 1000

/-- A key is removed when the activation of its job is due.  Nothing has been started for the
job by then, and a run of it is started afterwards. -/
theorem started_after_removal :
    untouched.Reaches due ∧
      due.Closing 0 (due.remove "cleanup").2 ∧
      due.executor.starts 0 = 0 ∧
      ∃ h, (due.remove "cleanup").2.Reaches h ∧ h.executor.starts 0 = 1 := by
  refine ⟨?_, .remove (by decide +kernel), by decide +kernel, ?_⟩
  · have hstarted := (untouched.reaches_perform _).trans (cleaning.reaches_perform .start)
    exact hstarted.trans (reaches_of_drifts _ ((Executor.drifts_settle _).tail (.clock 1000)))
  · -- The sleep ends first, though the token is cancelled.
    have hchosen := drifts_choose [1, 0, 0] (due.remove "cleanup").2.executor
    exact ⟨_, reaches_of_drifts _ hchosen, by decide +kernel⟩

end Registry
end Timetable
