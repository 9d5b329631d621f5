import Timetable.Proofs.Executor.Changes

/-!
# The books of the trackers

A tracker keeps a number, and the tasks that it is to count are elsewhere.  The
books balance if the number of each tracker is the sum of the loads of the runs
on it, and for the tracker of all activations also of the timers that have
counted one and not started its run.  Then no count is ever taken away that was
not there.

Main results:

* every change keeps the balance (Ledger.change), and so does whatever happens
  (Ledger.acts);
* while the engine stands still no activation is let through
  (activations_of_change);
* the tracker of all activations stays apart from the wrappers (Apart.change).
-/

namespace Timetable
namespace Executor

/-- The sum of the loads of all runs on a tracker. -/
def loads (e : Executor) (t : TrackerId) : Nat :=
  (e.runs.map fun run => run.load t).sum

/-- The number of timers that have counted an activation and not started its run. -/
def countedTimers (e : Executor) : Nat :=
  e.timers.countP Timer.isCounted

/-- Some layer of a job counts runs on a tracker. -/
def Tracks (e : Executor) (t : TrackerId) : Prop :=
  ∃ job ∈ e.jobs, Layer.track t ∈ job.layers

/-- Nothing that is counted has changed; a stopped engine has not been started, and jobs may
have been made with the layers of a chain. -/
structure Still (c : Chain) (e e' : Executor) : Prop where
  runs : e'.runs = e.runs
  counted : e'.countedTimers = e.countedTimers
  trackers : e'.trackers = e.trackers
  dispatched : e'.dispatched = e.dispatched
  running : e'.running = true → e.running = true
  tracks : ∀ t, e'.Tracks t → e.Tracks t ∨ Wrapper.track t ∈ c

/-- What a change does to what is counted. -/
inductive Effect (c : Chain) (e e' : Executor) : Prop where
  | still (h : Still c e e')
  | run
      (r : RunId)
      (run run' : Run)
      (hrun : e.runs[r]? = some run)
      (h : e.RunStep e' r run run')
  /-- An activation is counted. -/
  | count
      (h : Still c e { e' with trackers := e.trackers, timers := e.timers })
      (running : e.running = true)
      (length : e'.trackers.length = e.trackers.length)
      (inFlight : ∀ t < e.trackers.length,
        e'.inFlight t = e.inFlight t + if e.dispatched = t then 1 else 0)
      (counted : e'.countedTimers = e.countedTimers + 1)
  /-- A run is started, by a timer that has counted it or by hand. -/
  | spawn
      (run : Run)
      (h : Still c e { e' with runs := e.runs, timers := e.timers })
      (runs : e'.runs = e.runs ++ [run])
      (stack : run.stack = [])
      (lasts : run.isOver = false)
      (counted : run.counted = some e.dispatched ∧ e.countedTimers = e'.countedTimers + 1 ∨
        run.counted = none ∧ e.countedTimers = e'.countedTimers)

theorem KeepsJobs.tracks
    {e e' : Executor}
    (h : e.KeepsJobs e')
    {t : TrackerId}
    (ht : e'.Tracks t) :
    e.Tracks t := by
  obtain ⟨job', hmem, hlayer⟩ := ht
  obtain ⟨j, hj⟩ := List.mem_iff_getElem?.1 hmem
  obtain ⟨job, hjob, hkeeps⟩ := h.keeps j job' hj
  exact ⟨job, List.mem_of_getElem? hjob, hkeeps.tracked t hlayer⟩

theorem Quiet.still
    {e e' : Executor}
    (c : Chain)
    (h : e.Quiet e') :
    Still c e e' :=
  ⟨h.runs, by rw [countedTimers, h.timers, countedTimers], h.trackers, h.dispatched,
    fun hrunning => h.running ▸ hrunning, fun _ ht => Or.inl (h.jobs.tracks ht)⟩

/-- The number of counted timers when one of them is set. -/
theorem countP_set_add
    {l : List Timer}
    {n : Nat}
    {t : Timer}
    (ht : l[n]? = some t)
    (t' : Timer) :
    (l.set n t').countP Timer.isCounted + (if t.isCounted then 1 else 0) =
      l.countP Timer.isCounted + if t'.isCounted then 1 else 0 := by
  obtain ⟨hn, hget⟩ := List.getElem?_eq_some_iff.1 ht
  have hpos : t.isCounted = true → 0 < l.countP Timer.isCounted := by
    intro hcounted
    rw [List.countP_pos_iff]
    exact ⟨t, List.mem_of_getElem? ht, hcounted⟩
  rw [List.countP_set hn, hget]
  split <;> rename_i hcounted
  · have := hpos hcounted
    omega
  · omega

theorem still_setTimer
    {e : Executor}
    (c : Chain)
    {n : Nat}
    {t t' : Timer}
    (ht : e.timers[n]? = some t)
    (hcounted : t'.isCounted = t.isCounted) :
    Still c e (e.setTimer n t') := by
  refine ⟨rfl, ?_, rfl, rfl, id, fun _ => Or.inl⟩
  have hset := countP_set_add ht t'
  rw [hcounted] at hset
  exact Nat.add_right_cancel hset

theorem Still.trans_quiet
    {c : Chain}
    {a b d : Executor}
    (h : Still c a b)
    (hquiet : b.Quiet d) :
    Still c a d := by
  have hstill := hquiet.still c
  refine ⟨hstill.runs.trans h.runs, hstill.counted.trans h.counted,
    hstill.trackers.trans h.trackers, hstill.dispatched.trans h.dispatched,
    h.running ∘ hstill.running, ?_⟩
  intro t ht
  exact h.tracks t (hquiet.jobs.tracks ht)

theorem TimerStep.effect
    {e e' : Executor}
    (c : Chain)
    {n : Nat}
    {t t' : Timer}
    (ht : e.timers[n]? = some t)
    (h : e.TimerStep e' n t t') :
    Effect c e e' := by
  have hset := countP_set_add ht t'
  cases h with
  | quiet hquiet phase phase' =>
      have hsame : Still c e { e with timers := e.timers.set n t' } :=
        still_setTimer c ht (phase'.trans phase.symm)
      exact .still (hsame.trans_quiet hquiet)
  | count running hEq phase phase' =>
      obtain ⟨journal, henter⟩ := e.enter_eq e.dispatched
      have hflight : ∀ u < e.trackers.length,
          ((e.enter e.dispatched).setTimer n t').inFlight u =
            e.inFlight u + if e.dispatched = u then 1 else 0 :=
        fun u hu => e.inFlight_enter e.dispatched hu
      rw [phase, phase'] at hset
      rw [hEq]
      refine .count ?_ running ?_ hflight ?_
      · rw [henter]
        exact ⟨rfl, rfl, rfl, rfl, id, fun _ => Or.inl⟩
      · rw [henter]
        exact List.length_modify ..
      · rw [henter]
        exact hset
  | activate metric ctx hEq phase phase' =>
      rw [phase, phase'] at hset
      rw [hEq]
      refine .spawn _ ⟨rfl, rfl, rfl, rfl, id, fun _ => Or.inl⟩ rfl rfl rfl (Or.inl ⟨rfl, ?_⟩)
      exact hset.symm

theorem WaiterStep.still
    {e e' : Executor}
    (c : Chain)
    {n : Nat}
    {w w' : Waiter}
    (h : e.WaiterStep e' n w w') :
    Still c e e' := by
  have hset : Still c e { e with waiters := e.waiters.set n w' } :=
    ⟨rfl, rfl, rfl, rfl, id, fun _ => Or.inl⟩
  cases h with
  | pass _ _ hquiet => exact hset.trans_quiet hquiet
  | finish hquiet => exact hset.trans_quiet hquiet

/-- A timer that is closed by somebody or by itself counts what it has counted. -/
theorem still_exhaust
    (e : Executor)
    (c : Chain)
    (n : Nat) :
    Still c e (e.exhaust n) := by
  rcases e.exhaust_eq n with hEq | ⟨t, ht, hEq⟩
  · rw [hEq]
    exact (Quiet.refl e).still c
  · rw [hEq]
    exact still_setTimer c ht rfl

theorem still_close
    (e : Executor)
    (c : Chain)
    (n : Nat) :
    Still c e (e.close n) := by
  rcases e.close_eq n with hEq | ⟨s, hEq⟩
  · rw [hEq]
    exact (Quiet.refl e).still c
  · rw [hEq]
    exact (e.still_exhaust c n).trans_quiet (quiet_cancel _ s)

theorem still_addJob
    (e : Executor)
    (c : Chain)
    (key : String)
    (value : Value)
    (script : Script) :
    Still c e (e.addJob c key value script).1 := by
  refine ⟨rfl, rfl, rfl, rfl, id, ?_⟩
  rintro t ⟨job, hmem, hlayer⟩
  rcases List.mem_append.1 hmem with hmem | hmem
  · exact Or.inl ⟨job, hmem, hlayer⟩
  · obtain rfl := List.mem_singleton.1 hmem
    obtain ⟨w, hw, hEq⟩ := List.mem_map.1 hlayer
    cases w <;> cases hEq
    exact Or.inr hw

theorem still_arm
    (e : Executor)
    (c : Chain)
    (s : Schedule)
    (j : JobId)
    (driven : Bool) :
    Still c e (e.arm s j driven).1 := by
  refine ⟨rfl, ?_, rfl, rfl, id, fun _ => Or.inl⟩
  show (e.timers ++ [_]).countP Timer.isCounted = _
  rw [List.countP_append, countedTimers]
  cases driven <;> rfl

/-- **What a change does to what is counted.** -/
theorem Change.effect
    {c : Chain}
    {e e' : Executor}
    (h : Change c e e') :
    Effect c e e' := by
  have hsame : ∀ {e' : Executor}, e.Quiet e' → Effect c e e' := fun h => .still (h.still c)
  cases h with
  | drift h =>
      cases h with
      | move m h =>
          cases m with
          | run r =>
              obtain ⟨run, run', hrun, hstep⟩ := runStep_of_mem_runMoves h
              exact .run r run run' hrun hstep
          | timer n =>
              obtain ⟨t, t', ht, -, hstep⟩ := timerStep_of_mem_timerMoves h
              exact hstep.effect c ht
          | waiter n =>
              obtain ⟨w, w', -, -, hstep⟩ := waiterStep_of_mem_waiterMoves h
              exact .still (hstep.still c)
      | exhaust n => exact .still (e.still_exhaust c n)
      | clock | line | note => exact hsame ⟨rfl, rfl, rfl, rfl, rfl, rfl, .of_eq rfl⟩
      | wait => exact .still ⟨rfl, rfl, rfl, rfl, id, fun _ => Or.inl⟩
      | launch j ctx =>
          exact .spawn _ ⟨rfl, rfl, rfl, rfl, id, fun _ => Or.inl⟩ rfl rfl rfl
            (Or.inr ⟨rfl, rfl⟩)
  | giveUp n => exact .still ⟨rfl, rfl, rfl, rfl, id, fun _ => Or.inl⟩
  | close n => exact .still (e.still_close c n)
  | trigger s => exact hsame ⟨rfl, rfl, rfl, rfl, rfl, rfl, .of_eq rfl⟩
  | rearm s => exact hsame (e.quiet_rearm s)
  | stopEngine => exact .still ⟨rfl, rfl, rfl, rfl, by simp [Executor.stopEngine], fun _ => Or.inl⟩
  | addJob key value script => exact .still (e.still_addJob c key value script)
  | arm s j driven => exact .still (e.still_arm c s j driven)

/-- The books of the trackers balance. -/
structure Ledger (e : Executor) : Prop where
  dispatched : e.dispatched < e.trackers.length
  balance : ∀ t < e.trackers.length,
    e.inFlight t = e.loads t + if t = e.dispatched then e.countedTimers else 0

/-- The sum of the loads when a run is set. -/
theorem sum_map_set
    {α : Type}
    {f : α → Nat}
    {l : List α}
    {i : Nat}
    {a b : α}
    (h : l[i]? = some a) :
    ((l.set i b).map f).sum + f a = (l.map f).sum + f b := by
  induction l generalizing i with
  | nil => simp at h
  | cons x l ih =>
      cases i with
      | zero =>
          obtain rfl : x = a := by simpa using h
          simp only [List.set_cons_zero, List.map_cons, List.sum_cons]
          omega
      | succ i =>
          have htail := ih (i := i) (by simpa using h)
          simp only [List.set_cons_succ, List.map_cons, List.sum_cons]
          omega

/-- No run has more load than there is on the tracker. -/
theorem load_le_loads
    {e : Executor}
    {r : RunId}
    {run : Run}
    (hrun : e.runs[r]? = some run)
    (t : TrackerId) :
    run.load t ≤ e.loads t :=
  List.single_le_sum (by simp) _ (List.mem_map.2 ⟨run, List.mem_of_getElem? hrun, rfl⟩)

/-- **Every change keeps the balance.** -/
theorem Ledger.change
    {c : Chain}
    {e e' : Executor}
    (h : e.Ledger)
    (change : Change c e e') :
    e'.Ledger := by
  have hlater := change.later
  refine ⟨by rw [hlater.dispatched, hlater.trackers]; exact h.dispatched, ?_⟩
  intro t ht
  rw [hlater.trackers] at ht
  rw [hlater.dispatched]
  have hbalance := h.balance t ht
  cases change.effect with
  | still hstill =>
      rw [loads, hstill.runs, hstill.counted]
      unfold inFlight
      rw [hstill.trackers]
      exact hbalance
  | run r run run' hrun hstep =>
      have hsum := sum_map_set (f := fun run => Run.load run t) (b := run') hrun
      have hle := load_le_loads hrun t
      have hcounted : e'.countedTimers = e.countedTimers := by
        rw [countedTimers, hstep.timers, countedTimers]
      rw [← hstep.runs] at hsum
      have hloads : e'.loads t + run.load t = e.loads t + run'.load t := hsum
      rw [hstep.inFlight t ht, hcounted, hbalance]
      omega
  | count hstill running length hflight hcounted =>
      have hruns : e'.runs = e.runs := hstill.runs
      have hloads : e'.loads t = e.loads t := by rw [loads, hruns, loads]
      rw [hflight t ht, hbalance, hloads, hcounted]
      by_cases htd : t = e.dispatched
      · subst htd
        simp
        omega
      · rw [if_neg htd, if_neg htd, if_neg (Ne.symm htd)]
  | spawn run hstill hruns hstack hlasts hcounted =>
      have htrackers : e'.trackers = e.trackers := hstill.trackers
      have hload : run.load t = if run.counted = some t then 1 else 0 := by
        simp [Run.load, hstack, hlasts]
      have hsum : e'.loads t = e.loads t + run.load t := by
        rw [loads, hruns, List.map_append, List.sum_append]
        simp [loads]
      have hflight : e'.inFlight t = e.inFlight t := by
        unfold inFlight
        rw [htrackers]
      rw [hflight, hsum, hload, hbalance]
      rcases hcounted with ⟨hsome, hcount⟩ | ⟨hnone, hcount⟩
      · rw [hsome, hcount]
        by_cases htd : t = e.dispatched
        · subst htd
          simp
          omega
        · have : ¬ some e.dispatched = some t := by simpa using Ne.symm htd
          rw [if_neg htd, if_neg htd, if_neg this]
      · rw [hnone, hcount]
        simp

/-- **Whatever happens keeps the balance.** -/
theorem Ledger.acts
    {c : Chain}
    {e e' : Executor}
    (h : e.Ledger)
    (acts : Acts c e e') :
    e'.Ledger := by
  induction acts with
  | refl => exact h
  | tail _ act ih =>
      cases act with
      | change change => exact ih.change change
      | startEngine => exact ⟨ih.dispatched, ih.balance⟩

/-- The runs that the engine has started. -/
def engineRuns (e : Executor) : List Run :=
  e.runs.filter fun run => run.counted == some e.dispatched

/-- The number of activations that have been let through so far. -/
def activations (e : Executor) : Nat :=
  e.engineRuns.length + e.countedTimers

/-- A change that keeps how runs are counted keeps the number of the engine's runs. -/
theorem length_filter_set
    {l : List Run}
    {r : RunId}
    {run run' : Run}
    (hrun : l[r]? = some run)
    (hcounted : run'.counted = run.counted)
    (p : Option TrackerId → Bool) :
    ((l.set r run').filter fun run => p run.counted).length =
      (l.filter fun run => p run.counted).length := by
  induction l generalizing r with
  | nil => simp at hrun
  | cons x l ih =>
      cases r with
      | zero =>
          obtain rfl : x = run := by simpa using hrun
          simp only [List.set_cons_zero, List.filter_cons, hcounted]
          split <;> rfl
      | succ r =>
          have htail := ih (r := r) (by simpa using hrun)
          simp only [List.set_cons_succ, List.filter_cons]
          split
          · simp only [List.length_cons, htail]
          · exact htail

/-- **While the engine stands still no activation is let through.** -/
theorem activations_of_change
    {c : Chain}
    {e e' : Executor}
    (change : Change c e e')
    (stopped : e.running = false) :
    e'.activations = e.activations ∧ e'.running = false := by
  have hdispatched := change.later.dispatched
  have hstays : (e'.running = true → e.running = true) → e'.running = false := by
    intro h
    by_contra hrunning
    rw [Bool.not_eq_false] at hrunning
    rw [h hrunning] at stopped
    simp at stopped
  unfold activations engineRuns
  rw [hdispatched]
  cases change.effect with
  | still hstill => exact ⟨by rw [hstill.runs, hstill.counted], hstays hstill.running⟩
  | run r run run' hrun hstep =>
      have hlength := length_filter_set hrun hstep.counted fun counted =>
        counted == some e.dispatched
      refine ⟨?_, hstays fun h => hstep.running ▸ h⟩
      rw [hstep.runs, hlength, countedTimers, hstep.timers, countedTimers]
  | count _ running =>
      rw [stopped] at running
      simp at running
  | spawn run hstill hruns hstack hlasts hcounted =>
      refine ⟨?_, hstays hstill.running⟩
      rw [hruns, List.filter_append, List.length_append]
      rcases hcounted with ⟨hsome, hcount⟩ | ⟨hnone, hcount⟩
      · simp [hsome]
        omega
      · simp [hnone, hcount]

/-- Nor is one let through while changes follow one another. -/
theorem activations_of_changes
    {c : Chain}
    {e e' : Executor}
    (changes : Changes c e e')
    (stopped : e.running = false) :
    e'.activations = e.activations ∧ e'.running = false := by
  induction changes with
  | refl => exact ⟨rfl, stopped⟩
  | tail _ change ih =>
      obtain ⟨hsame, hstays⟩ := activations_of_change change ih.2
      exact ⟨hsame.trans ih.1, hstays⟩

/-- No run and no layer counts runs on the tracker of all activations. -/
structure Apart (e : Executor) : Prop where
  layers : ¬ e.Tracks e.dispatched
  frames : ∀ run ∈ e.runs, Frame.track e.dispatched ∉ run.stack

/-- The tracker of all activations stays apart, if no wrapper of the chain names it. -/
theorem Apart.change
    {c : Chain}
    {e e' : Executor}
    (h : e.Apart)
    (chain : Wrapper.track e.dispatched ∉ c)
    (change : Change c e e') :
    e'.Apart := by
  have hdispatched := change.later.dispatched
  refine ⟨?_, ?_⟩
  · rw [hdispatched]
    intro htracks
    have hstill : e.Tracks e.dispatched ∨ Wrapper.track e.dispatched ∈ c := by
      cases change.effect with
      | still hstill => exact hstill.tracks _ htracks
      | run r run run' hrun hstep => exact Or.inl (hstep.jobs.tracks htracks)
      | count hstill => exact hstill.tracks _ htracks
      | spawn run hstill => exact hstill.tracks _ htracks
    rcases hstill with htracked | hmem
    · exact h.layers htracked
    · exact chain hmem
  · rw [hdispatched]
    intro other hmem hframe
    cases change.effect with
    | still hstill => exact h.frames other (hstill.runs ▸ hmem) hframe
    | run r run run' hrun hstep =>
        rw [hstep.runs] at hmem
        rcases List.mem_or_eq_of_mem_set hmem with hmem | rfl
        · exact h.frames other hmem hframe
        · rcases hstep.entered _ hframe with hold | ⟨job, hjob, hlayer⟩
          · exact h.frames run (List.mem_of_getElem? hrun) hold
          · exact h.layers ⟨job, List.mem_of_getElem? hjob, hlayer⟩
    | count hstill =>
        have hruns : e'.runs = e.runs := hstill.runs
        exact h.frames other (hruns ▸ hmem) hframe
    | spawn run hstill hruns hstack =>
        rw [hruns] at hmem
        rcases List.mem_append.1 hmem with hmem | hmem
        · exact h.frames other hmem hframe
        · obtain rfl := List.mem_singleton.1 hmem
          rw [hstack] at hframe
          simp at hframe

theorem Apart.acts
    {c : Chain}
    {e e' : Executor}
    (h : e.Apart)
    (chain : Wrapper.track e.dispatched ∉ c)
    (acts : Acts c e e') :
    e'.Apart := by
  induction acts with
  | refl => exact h
  | tail hfirst act ih =>
      cases act with
      | change change =>
          refine ih.change ?_ change
          rw [(Acts.later hfirst).dispatched]
          exact chain
      | startEngine => exact ⟨ih.layers, ih.frames⟩

end Executor
end Timetable
