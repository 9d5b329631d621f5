import Timetable.Proofs.Registry.Conservation
import Timetable.Proofs.Registry.Inspection
import Timetable.Proofs.Registry.Refusal

/-!
# The gauge of registered jobs

The gauge is set in two places: when a job has been added, after all entries of closed
timers have been dropped, and when a key has been removed.  Looks drop entries too,
and leave the gauge as it is, so from then on it is above the number of entries, until
something is added or removed again.

Main results:

* neither the tasks of an executor nor the clock touch the gauge (gauge_of_tick);
* an operation that does not report leaves the gauge alone and adds no entry
  (kept_of_unreported);
* after an operation that changes the entries the gauge is their number exactly if the
  operation reports (gauge_follows_reports).
-/

namespace Timetable

/-- What the gauge of registered jobs shows. -/
def Sign.registered : Sign :=
  .figure .registeredJobs

namespace Executor

variable {c : Chain} {e e' : Executor}

/-- No move of a task touches the gauge of registered jobs. -/
theorem registered_of_mem_moves
    {m : Mover}
    (staffed : Staffed c e)
    (h : e' ∈ e.moves m) :
    e'.tally .registered = e.tally .registered := by
  cases m with
  | run r =>
      obtain ⟨run, -, hrun, -⟩ := runStep_of_mem_runMoves h
      have hjob := List.getElem?_eq_getElem (staffed.housed run (List.mem_of_getElem? hrun))
      obtain ⟨run', job', signs, hwalked⟩ := walked_of_mem_runMoves hrun hjob h
      have hunsigned : Sign.registered ∉ signs := by
        intro hmem
        cases hwalked.walk.signed hmem
      rw [hwalked.tally .registered (by simp [Sign.registered]),
        List.count_eq_zero_of_not_mem hunsigned, Nat.add_zero]
  | timer n =>
      obtain ⟨t, -, ht, -⟩ := driven_of_mem_timerMoves h
      rw [tally_of_mem_timerMoves ht h (by simp [Sign.registered]) (by simp [Sign.registered])]
      have hunsigned : Sign.registered ∉ e.activationSigns t := by
        unfold activationSigns
        split <;> simp [Sign.registered]
      rw [List.count_eq_zero_of_not_mem hunsigned, Nat.add_zero]
  | waiter n => exact tally_of_mem_waiterMoves h (by simp [Sign.registered])

/-- **Neither tasks nor the clock touch the gauge of registered jobs.** -/
theorem registered_of_tick
    (staffed : Staffed c e)
    (h : e.Tick e') :
    e'.tally .registered = e.tally .registered := by
  cases h with
  | move m h => exact registered_of_mem_moves staffed h
  | clock | line | wait => rfl

theorem registered_of_ticks
    (booked : Booked c e)
    (h : e.Ticks e') :
    e'.tally .registered = e.tally .registered := by
  induction h with
  | refl => rfl
  | tail hticks htick ih =>
      have hbooked := booked.serves (Ticks.serves hticks)
      exact (registered_of_tick hbooked.staffed htick).trans ih

/-- Nor does anything that happens while somebody waits for trackers. -/
theorem registered_waitFor
    (booked : Booked c e)
    (trackers : List TrackerId)
    (farewell : Option LogLine)
    (limit : Nat) :
    (e.waitFor trackers farewell limit).1.tally .registered = e.tally .registered := by
  have hawait := e.ticks_await trackers farewell
  have hawaiting := booked.serves (Ticks.serves hawait)
  have hawaited := registered_of_ticks booked hawait
  rcases e.ticks_waitFor trackers farewell limit with ⟨-, -, h⟩ | ⟨-, e₁, h, h'⟩
  · exact (registered_of_ticks hawaiting h).trans hawaited
  · have hwaiting := hawaiting.serves (Ticks.serves h)
    have hgiven : (e₁.giveUp e.waiters.length).tally .registered = e₁.tally .registered := rfl
    have hafter := registered_of_ticks (hwaiting.serve (.giveUp e.waiters.length)) h'
    exact ((hafter.trans hgiven).trans (registered_of_ticks hawaiting h)).trans hawaited

end Executor

namespace Registry

/-- The gauge of registered jobs. -/
def gauge (g : Registry) : Nat :=
  g.executor.tally .registered

/-- The operation accepts a job or removes a key. -/
def Operation.Reports (g : Registry) : Operation → Prop
  | add key value script schedule => (g.add key value script schedule).1 = .ok ()
  | addText key value script text => (g.addText key value script text).1 = .ok ()
  | remove key => (g.remove key).1 = true
  | _ => False

/-- Something happens to a registry: an operation is performed, a task moves or the clock goes
on, or a timer counts as closed. -/
inductive Happen (g : Registry) : Registry → Prop
  | perform (o : Operation) : Happen g (o.perform g)
  | tick
      {e : Executor}
      (h : g.executor.Tick e) :
      Happen g (g.within e)
  | exhaust (n : Nat) : Happen g (g.onExecutor (·.exhaust n))

/-- Things happen to a registry one after the other. -/
abbrev Happens : Registry → Registry → Prop :=
  Relation.ReflTransGen Happen

variable {g g' : Registry} {key : String} {value : Value} {script : Script}

theorem Happens.attends (h : g.Happens g') : g.Attends g' := by
  refine Relation.ReflTransGen.mono (fun g g' h => ?_) _ _ h
  cases h with
  | perform o => exact .perform o
  | tick h => exact .serve (.tick h)
  | exhaust n => exact .serve (.exhaust n)

/-! ### Operations that report -/

/-- What has been pruned has open timers only. -/
theorem size_prune (g : Registry) : g.prune.size.1 = g.prune.entries.length := by
  rw [size, prune_prune]

/-- A job that is registered is reported with all that is left, and that is open. -/
theorem gauge_register
    (g : Registry)
    (key : String)
    (value : Value)
    (script : Script)
    (schedule : Schedule) :
    let g' := g.register key value script schedule
    g'.gauge = g'.entries.length ∧ g'.gauge = g'.size.1 := by
  intro g'
  have hgauge : g'.gauge = g'.entries.length := by
    show Journal.value _ _ = _
    exact (Journal.value_note ..).trans (Journal.value_note ..)
  exact ⟨hgauge, hgauge.trans (size_prune _).symm⟩

theorem gauge_add
    {schedule : Schedule}
    (accepted : (g.add key value script schedule).1 = .ok ()) :
    let g' := (g.add key value script schedule).2
    g'.gauge = g'.entries.length ∧ g'.gauge = g'.size.1 := by
  rw [add_eq_register accepted]
  exact gauge_register _ key value script _

theorem gauge_addText
    {text : String}
    (accepted : (g.addText key value script text).1 = .ok ()) :
    let g' := (g.addText key value script text).2
    g'.gauge = g'.entries.length ∧ g'.gauge = g'.size.1 := by
  unfold addText at accepted ⊢
  rcases hparse : g.parser.parse text with (f | x) | e
  · simp [hparse] at accepted
  · simp [hparse] at accepted
  · simp only [hparse] at accepted ⊢
    exact gauge_add accepted

/-- A key that is removed is reported with all that is left, open or not. -/
theorem gauge_remove (removed : (g.remove key).1 = true) :
    let g' := (g.remove key).2
    g'.gauge = g'.entries.length ∧
      (g'.gauge = g'.size.1 ↔ ∀ entry ∈ g'.entries, g'.executor.isClosed entry.2 = false) := by
  intro g'
  have hgauge : g'.gauge = g'.entries.length := by
    unfold Registry.remove at removed
    show (g.remove key).2.gauge = (g.remove key).2.entries.length
    unfold Registry.remove
    split at removed
    · cases removed
    · exact (Journal.value_note ..).trans (Journal.value_note ..)
  refine ⟨hgauge, ?_⟩
  rw [hgauge]
  show g'.entries.length = (g'.entries.filter _).length ↔ _
  rw [eq_comm, List.length_filter_eq_length_iff]
  simp

/-! ### Operations that do not -/

/-- Lines of the log do not touch the gauge. -/
theorem gauge_log
    (g : Registry)
    (level : Level)
    (message : String)
    (fields : List (String × String)) :
    (g.log level message fields).gauge = g.gauge :=
  Journal.value_note ..

theorem gauge_halt (g : Registry) : g.halt.gauge = g.gauge :=
  rfl

theorem gauge_start (g : Registry) : g.start.gauge = g.gauge := by
  have hrearm : (g.executor.rearm g.signal).journal = g.executor.journal := by
    unfold Executor.rearm
    split <;> rfl
  unfold start
  split
  · rfl
  · refine (gauge_log ..).trans ?_
    exact congrArg (fun j : Journal => j.value .registeredJobs) hrearm

theorem gauge_forceStop (g : Registry) : g.forceStop.gauge = g.gauge := by
  unfold forceStop
  split
  · exact (gauge_log ..).trans g.gauge_halt
  · rfl

/-- What a stop waits for does not touch the gauge either. -/
theorem gauge_stop
    {c : Chain}
    (booked : Executor.Booked c g.executor)
    (chain : g.chain = c)
    (limit : Nat) :
    (g.stop limit).1.gauge = g.gauge := by
  subst chain
  have hhalted := booked.serves g.serves_halt
  unfold stop
  split
  · dsimp only
    split
    · exact (Executor.registered_waitFor (hhalted.serve (.note _ rfl)) _ _ _).trans (gauge_log ..)
    · exact Executor.registered_waitFor hhalted _ _ _
  · rfl

theorem entries_start (g : Registry) : g.start.entries = g.entries := by
  unfold start
  split <;> rfl

theorem entries_forceStop (g : Registry) : g.forceStop.entries = g.entries := by
  unfold forceStop
  split <;> rfl

theorem entries_stop
    (g : Registry)
    (limit : Nat) :
    (g.stop limit).1.entries = g.entries := by
  unfold stop
  split
  · dsimp only
    split <;> rfl
  · rfl

/-- A refused job leaves gauge and entries alone. -/
theorem Unharmed.kept (h : g.Unharmed g') : g'.gauge = g.gauge ∧ g'.entries = g.entries := by
  obtain ⟨⟨journal, rfl⟩, hfigures⟩ := h
  exact ⟨hfigures .registeredJobs fun _ => by simp, rfl⟩

/-- **An operation that does not report leaves the gauge alone**, and adds no entry. -/
theorem kept_of_unreported
    (booked : Executor.Booked g.chain g.executor)
    {o : Operation}
    (unreported : ¬ o.Reports g) :
    (o.perform g).gauge = g.gauge ∧ (o.perform g).entries.Sublist g.entries := by
  have hrefused : ∀ {r : Except Refusal Unit}, r ≠ .ok () → ∃ refusal, r = .error refusal := by
    intro r hr
    cases r with
    | error refusal => exact ⟨refusal, rfl⟩
    | ok u => exact absurd rfl hr
  cases o with
  | add key value script schedule =>
      obtain ⟨refusal, refused⟩ := hrefused unreported
      obtain ⟨hgauge, hentries⟩ := (unharmed_add refused).kept
      exact ⟨hgauge, hentries ▸ .refl _⟩
  | addText key value script text =>
      obtain ⟨refusal, refused⟩ := hrefused unreported
      obtain ⟨hgauge, hentries⟩ := (unharmed_addText refused).kept
      exact ⟨hgauge, hentries ▸ .refl _⟩
  | remove key =>
      have hsame : (g.remove key).2 = g := by
        change ¬ (g.remove key).1 = true at unreported
        unfold Registry.remove at unreported ⊢
        split
        · rfl
        · simp_all
      show (g.remove key).2.gauge = g.gauge ∧ (g.remove key).2.entries.Sublist g.entries
      rw [hsame]
      exact ⟨rfl, .refl _⟩
  | contains key =>
      show (g.contains key).2.gauge = g.gauge ∧ (g.contains key).2.entries.Sublist g.entries
      unfold Registry.contains
      split
      · exact ⟨rfl, .refl _⟩
      · split
        · exact ⟨rfl, List.filter_sublist⟩
        · exact ⟨rfl, .refl _⟩
  | size => exact ⟨rfl, List.filter_sublist⟩
  | keys => exact ⟨rfl, List.filter_sublist⟩
  | start => exact ⟨g.gauge_start, g.entries_start ▸ .refl _⟩
  | stop limit => exact ⟨gauge_stop booked rfl limit, g.entries_stop limit ▸ .refl _⟩
  | forceStop => exact ⟨g.gauge_forceStop, g.entries_forceStop ▸ .refl _⟩

/-! ### The gauge and the entries -/

theorem Happens.booked
    {g₀ : Registry}
    (unused : Unused g₀.executor)
    (h : g₀.Happens g) :
    Executor.Booked g.chain g.executor := by
  obtain ⟨hchain, hserves⟩ := h.attends.serves
  rw [hchain]
  exact (unused.booked g₀.chain).serves hserves

/-- An operation that reports sets the gauge to the number of entries that it leaves. -/
theorem gauge_of_reports
    {o : Operation}
    (reports : o.Reports g) :
    (o.perform g).gauge = (o.perform g).entries.length := by
  cases o with
  | add key value script schedule => exact (gauge_add reports).1
  | addText key value script text => exact (gauge_addText reports).1
  | remove key => exact (gauge_remove reports).1
  | contains | size | keys | start | stop | forceStop => cases reports

/-- Each entry has been reported, so the gauge is never below their number. -/
theorem length_entries_le_gauge
    {g₀ : Registry}
    (unused : Unused g₀.executor)
    (entries : g₀.entries = [])
    (h : g₀.Happens g) :
    g.entries.length ≤ g.gauge := by
  induction h with
  | refl =>
      rw [entries]
      exact Nat.zero_le _
  | @tail g g' hbefore hlast ih =>
      have hbooked := Happens.booked unused hbefore
      cases hlast with
      | perform o =>
          by_cases reports : o.Reports g
          · exact (gauge_of_reports reports).ge
          · obtain ⟨hgauge, hsub⟩ := kept_of_unreported hbooked reports
            rw [hgauge]
            exact hsub.length_le.trans ih
      | tick h => exact ih.trans (Executor.registered_of_tick hbooked.staffed h).ge
      | exhaust n => exact ih

/-- **After an operation that changes the entries the gauge is their number exactly if the
operation accepts a job or removes a key.**  Nothing else touches the gauge.  When a job has
been accepted the gauge is the number of open keys, and when a key has been removed it is so
exactly if no entry of a closed timer is left.  A registry that is asked whether it is empty
drops what it drops when it is asked for its size. -/
theorem gauge_follows_reports
    {g₀ : Registry}
    (unused : Unused g₀.executor)
    (entries : g₀.entries = [])
    (h : g₀.Happens g) :
    (∀ o : Operation, (o.perform g).entries ≠ g.entries →
        ((o.perform g).gauge = (o.perform g).entries.length ↔ o.Reports g)) ∧
      (∀ o : Operation, ¬ o.Reports g → (o.perform g).gauge = g.gauge) ∧
      (∀ e, g.executor.Tick e → (g.within e).gauge = g.gauge) ∧
      (∀ n, (g.onExecutor (·.exhaust n)).gauge = g.gauge) ∧
      g.isEmpty.2 = Operation.size.perform g ∧
      (∀ key value script schedule, (g.add key value script schedule).1 = .ok () →
        (g.add key value script schedule).2.gauge =
          (g.add key value script schedule).2.keys.1.length) ∧
      (∀ key value script text, (g.addText key value script text).1 = .ok () →
        (g.addText key value script text).2.gauge =
          (g.addText key value script text).2.keys.1.length) ∧
      ∀ key, (g.remove key).1 = true →
        ((g.remove key).2.gauge = (g.remove key).2.keys.1.length ↔
          ∀ entry ∈ (g.remove key).2.entries,
            (g.remove key).2.executor.isClosed entry.2 = false) := by
  have hbooked := h.booked unused
  simp only [length_keys]
  refine ⟨fun o changed => ⟨fun hgauge => ?_, gauge_of_reports⟩,
    fun o unreported => (kept_of_unreported hbooked unreported).1,
    fun e htick => Executor.registered_of_tick hbooked.staffed htick, fun n => rfl, rfl,
    fun key value script schedule accepted => (gauge_add accepted).2,
    fun key value script text accepted => (gauge_addText accepted).2,
    fun key removed => (gauge_remove removed).2⟩
  by_contra unreported
  obtain ⟨hkept, hsub⟩ := kept_of_unreported hbooked unreported
  have hle := length_entries_le_gauge unused entries h
  rw [← hkept, hgauge] at hle
  exact changed (hsub.eq_of_length_le hle)

theorem happens_of_ticks
    (g : Registry)
    {e : Executor}
    (h : g.executor.Ticks e) :
    g.Happens (g.within e) := by
  induction h with
  | refl => exact .refl
  | tail _ htick ih => exact ih.tail (.tick htick)

theorem gauge_follows_reports_cleaning :
    Unused untouched.executor ∧
      untouched.entries = [] ∧
      untouched.Happens cleaning ∧
      (cleaning.remove "cleanup").1 = true ∧
      (cleaning.remove "cleanup").2.gauge = (cleaning.remove "cleanup").2.keys.1.length := by
  have hunused : Unused untouched.executor := ⟨rfl, rfl, rfl, rfl, fun _ _ _ => rfl⟩
  have hhappens : untouched.Happens cleaning := .single (.perform _)
  have hremoved : (cleaning.remove "cleanup").1 = true := by decide +kernel
  have hnone : (cleaning.remove "cleanup").2.entries = [] := by decide +kernel
  obtain ⟨-, -, -, -, -, -, -, hremove⟩ := gauge_follows_reports hunused rfl hhappens
  refine ⟨hunused, rfl, hhappens, hremoved, (hremove "cleanup" hremoved).2 ?_⟩
  rw [hnone]
  simp

/-- The registry in which one of two timers has found that there is nothing to wait for. -/
def halfSpent : Registry :=
  let both := (Operation.add "cleanup" .null (Script.ofList []) everySecond).perform
    ((Operation.add "once" .null (Script.ofList []) (.once .epoch false)).perform
      (Operation.start.perform untouched))
  both.onExecutor Executor.settle

/-- A look drops the entry of a closed timer and leaves the gauge above the number of entries;
a removal counts such an entry as if its key were in use. -/
theorem gauge_stays_behind :
    untouched.Happens spent ∧
      (Operation.keys.perform spent).entries ≠ spent.entries ∧
      (Operation.keys.perform spent).gauge = 1 ∧
      (Operation.keys.perform spent).entries.length = 0 ∧
      untouched.Happens halfSpent ∧
      (halfSpent.remove "cleanup").1 = true ∧
      (halfSpent.remove "cleanup").2.gauge = 1 ∧
      (halfSpent.remove "cleanup").2.keys.1.length = 0 := by
  have hspent : untouched.Happens spent := by
    have hadded : untouched.Happens ((Operation.add "once" .null (Script.ofList [])
        (.once .epoch false)).perform (Operation.start.perform untouched)) :=
      .tail (.single (.perform .start)) (.perform _)
    exact hadded.trans (happens_of_ticks _ (Executor.ticks_settle _))
  have hhalf : untouched.Happens halfSpent := by
    have hadded : untouched.Happens ((Operation.add "cleanup" .null (Script.ofList [])
        everySecond).perform ((Operation.add "once" .null (Script.ofList [])
          (.once .epoch false)).perform (Operation.start.perform untouched))) :=
      .tail (.tail (.single (.perform .start)) (.perform _)) (.perform _)
    exact hadded.trans (happens_of_ticks _ (Executor.ticks_settle _))
  exact ⟨hspent, by decide +kernel, by decide +kernel, by decide +kernel, hhalf,
    by decide +kernel, by decide +kernel, by decide +kernel⟩

end Registry
end Timetable
