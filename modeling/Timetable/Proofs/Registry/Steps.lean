import Timetable.Proofs.Executor.Changes
import Timetable.Registry

/-!
# Steps of a registry

An operation of a registry is not done at one stroke: the executor drifts while
it lasts, and only the map of timers is out of the reach of others.  The steps
are the parts of the operations, with drifts between them; a stop is a halt and
a wait that others may run into.  What the operations do by themselves is one of
the ways that the steps allow.

Main results:

* whatever an operation leads to is reached in steps (reaches_perform);
* what a step does to the executor are changes, if it does not start the engine
  (Step.changes).
-/

namespace Timetable
namespace Registry

/-- What can be asked of a registry. -/
inductive Operation where
  | add (key : String) (value : Value) (script : Script) (schedule : Schedule)
  | addText (key : String) (value : Value) (script : Script) (text : String)
  | remove (key : String)
  | contains (key : String)
  | size
  | keys
  | start
  | stop (limit : Nat)
  | forceStop

/-- The registry after an operation. -/
def Operation.perform (g : Registry) : Operation → Registry
  | add key value script schedule => (g.add key value script schedule).2
  | addText key value script text => (g.addText key value script text).2
  | remove key => (g.remove key).2
  | contains key => (g.contains key).2
  | size => g.size.2
  | keys => g.keys.2
  | start => g.start
  | stop limit => (g.stop limit).1
  | forceStop => g.forceStop

/-- The registry with another state of its executor. -/
def within (g : Registry) (e : Executor) : Registry :=
  { g with executor := e }

/-- A job is added and its timer armed, and the timer kept under a key. -/
def armed (g : Registry) (key : String) (value : Value) (script : Script)
    (schedule : Schedule) : Registry :=
  let (e, job) := g.executor.addJob g.chain key value script
  let (e, n) := e.arm schedule job g.driven
  { g with executor := e, entries := g.entries ++ [(key, n)] }

/-- One step of a registry and its executor. -/
inductive Step (g : Registry) : Registry → Prop where
  | drift
      {e : Executor}
      (h : g.executor.Drift e) :
      Step g (g.within e)
  | giveUp (n : Nat) : Step g (g.within (g.executor.giveUp n))
  | start
      {e : Executor}
      (stopped : g.running = false)
      (h : (g.executor.rearm g.signal).Drifts e) :
      Step g { g.within e.startEngine with running := true }
  | halt
      {e : Executor}
      (running : g.running = true)
      (h : g.executor.stopEngine.Drifts e) :
      Step g { g.within (e.trigger g.signal) with running := false }
  /-- The old timer is closed, the new one armed and kept. -/
  | register
      (key : String)
      (value : Value)
      (script : Script)
      (schedule : Schedule)
      {e : Executor}
      (h : (g.replace key).executor.Drifts e) :
      Step g (((g.replace key).within e).armed key value script schedule)
  | remove (key : String) : Step g (g.remove key).2
  | contains (key : String) : Step g (g.contains key).2
  /-- Entries whose timers are closed are dropped, not necessarily all. -/
  | forget
      (entries : List (String × Nat))
      (sub : entries.Sublist g.entries)
      (closed : ∀ entry ∈ g.entries, entry ∉ entries → g.executor.isClosed entry.2 = true) :
      Step g { g with entries := entries }

/-- A registry reaches another one in steps. -/
abbrev Reaches : Registry → Registry → Prop :=
  Relation.ReflTransGen Step

section Perform

variable (g : Registry)

theorem reaches_of_drifts
    {e : Executor}
    (h : g.executor.Drifts e) :
    g.Reaches (g.within e) := by
  induction h with
  | refl => exact .refl
  | tail _ hstep ih => exact ih.tail (.drift hstep)

theorem reaches_noteAll (events : List Event) :
    g.Reaches (g.within (g.executor.noteAll events)) :=
  g.reaches_of_drifts (g.executor.drifts_noteAll events)

theorem reaches_log
    (level : Level)
    (message : String)
    (fields : List (String × String)) :
    g.Reaches (g.log level message fields) :=
  .single (.drift (.note _))

theorem reaches_reportSize : g.Reaches g.reportSize :=
  .single (.drift (.note _))

/-- An entry that is not live has a closed timer. -/
theorem isClosed_of_not_mem_liveEntries
    {entry : String × Nat}
    (hmem : entry ∈ g.entries)
    (hnot : entry ∉ g.liveEntries) :
    g.executor.isClosed entry.2 = true := by
  by_contra hopen
  refine hnot (List.mem_filter.2 ⟨hmem, ?_⟩)
  simpa using hopen

theorem reaches_prune : g.Reaches g.prune :=
  .single (.forget g.liveEntries List.filter_sublist
    fun _ => g.isClosed_of_not_mem_liveEntries)

theorem reaches_register
    (key : String)
    (value : Value)
    (script : Script)
    (schedule : Schedule) :
    g.Reaches (g.register key value script schedule) := by
  have harmed : g.Reaches ((g.replace key).armed key value script schedule) :=
    .single (.register key value script schedule .refl)
  exact ((harmed.trans (reaches_prune _)).trans (reaches_reportSize _)).trans
    (reaches_log _ _ _ _)

theorem reaches_add
    (key : String)
    (value : Value)
    (script : Script)
    (schedule : Schedule) :
    g.Reaches (g.add key value script schedule).2 := by
  unfold add
  split
  · exact .refl
  · have hnoted := g.reaches_noteAll schedule.validate.events
    dsimp only
    split
    · exact hnoted
    · exact hnoted.trans (.single (.drift (.note _)))
    · exact hnoted.trans (reaches_register _ _ _ _ _)

theorem reaches_addText
    (key : String)
    (value : Value)
    (script : Script)
    (text : String) :
    g.Reaches (g.addText key value script text).2 := by
  unfold addText
  split
  · exact g.reaches_noteAll _
  · exact .refl
  · exact g.reaches_add _ _ _ _

theorem reaches_halt (running : g.running = true) : g.Reaches g.halt :=
  .single (.halt running .refl)

theorem reaches_start : g.Reaches g.start := by
  unfold start
  split
  · exact .refl
  · rename_i hstopped
    have hstart : g.Reaches { g.within (g.executor.rearm g.signal).startEngine with
        running := true } :=
      .single (.start (by simpa using hstopped) .refl)
    exact hstart.trans (reaches_log _ _ _ _)

theorem reaches_forceStop : g.Reaches g.forceStop := by
  unfold forceStop
  split
  · rename_i hrunning
    exact (g.reaches_halt hrunning).trans (reaches_log _ _ _ _)
  · exact .refl

/-- Waiting for trackers is reached in steps, also when it is given up. -/
theorem reaches_waitFor
    (trackers : List TrackerId)
    (farewell : Option LogLine)
    (limit : Nat) :
    g.Reaches (g.within (g.executor.waitFor trackers farewell limit).1) := by
  have hawait := g.reaches_of_drifts (g.executor.drifts_await trackers farewell)
  rcases g.executor.drifts_waitFor trackers farewell limit with ⟨-, -, h⟩ | ⟨-, e, h, h'⟩
  · exact hawait.trans (reaches_of_drifts _ h)
  · have hgiveUp : (g.within e).Step (g.within (e.giveUp g.executor.waiters.length)) :=
      .giveUp g.executor.waiters.length
    have hend := reaches_of_drifts (g.within (e.giveUp g.executor.waiters.length)) h'
    exact ((hawait.trans (reaches_of_drifts _ h)).tail hgiveUp).trans hend

/-- A stop is a halt and the wait after it. -/
theorem stop_eq
    (running : g.running = true)
    (limit : Nat) :
    ∃ h : Registry,
      g.halt.Reaches h ∧
      g.stop limit = (h.within (h.executor.waitFor h.stopTrackers (some stopFarewell) limit).1,
        (h.executor.waitFor h.stopTrackers (some stopFarewell) limit).2) := by
  unfold stop
  rw [if_pos running]
  dsimp only
  split
  · exact ⟨_, reaches_log _ _ _ _, rfl⟩
  · exact ⟨_, .refl, rfl⟩

theorem reaches_stop (limit : Nat) : g.Reaches (g.stop limit).1 := by
  by_cases running : g.running = true
  · obtain ⟨h, hreaches, hstop⟩ := g.stop_eq running limit
    rw [hstop]
    exact ((g.reaches_halt running).trans hreaches).trans (reaches_waitFor _ _ _ _)
  · unfold stop
    rw [if_neg running]

/-- **Whatever an operation leads to is reached in steps.** -/
theorem reaches_perform (o : Operation) : g.Reaches (o.perform g) := by
  cases o with
  | add key value script schedule => exact g.reaches_add key value script schedule
  | addText key value script text => exact g.reaches_addText key value script text
  | remove key => exact .single (.remove key)
  | contains key => exact .single (.contains key)
  | size => exact g.reaches_prune
  | keys => exact g.reaches_prune
  | start => exact g.reaches_start
  | stop limit => exact g.reaches_stop limit
  | forceStop => exact g.reaches_forceStop

end Perform

/-- Closing a timer that is replaced is a change of the executor. -/
theorem changes_replace
    (g : Registry)
    (key : String) :
    Executor.Changes g.chain g.executor (g.replace key).executor := by
  unfold replace
  split
  · exact .refl
  · exact .tail (.single (.close _)) (.drift (.note _))

/-- **What a step does to the executor are changes; only a start also starts the engine.** -/
theorem Step.changes
    {g g' : Registry}
    (h : g.Step g') :
    Executor.Changes g.chain g.executor g'.executor ∨
      ∃ e, Executor.Changes g.chain g.executor e ∧ g'.executor = e.startEngine := by
  cases h with
  | drift h => exact Or.inl (.single (.drift h))
  | giveUp n => exact Or.inl (.single (.giveUp n))
  | start _ h => exact Or.inr ⟨_, .head (.rearm g.signal) h.changes, rfl⟩
  | halt _ h => exact Or.inl (.head .stopEngine (h.changes.tail (.trigger g.signal)))
  | register key value script schedule h =>
      refine Or.inl (((g.changes_replace key).trans h.changes).trans ?_)
      have hchain : ∀ key, (g.replace key).chain = g.chain := by
        intro key
        unfold replace
        split <;> rfl
      rw [← hchain key]
      exact .tail (.single (.addJob key value script)) (.arm schedule _ _)
  | remove key =>
      refine Or.inl ?_
      unfold Registry.remove
      split
      · exact .refl
      · exact .tail (.tail (.single (.close _)) (.drift (.note _))) (.drift (.note _))
  | contains key =>
      refine Or.inl ?_
      unfold Registry.contains
      split
      · exact .refl
      · split
        · exact .refl
        · exact .refl
  | forget => exact Or.inl .refl

theorem Step.acts
    {g g' : Registry}
    (h : g.Step g') :
    Executor.Acts g.chain g.executor g'.executor := by
  rcases h.changes with h | ⟨e, h, hstart⟩
  · exact h.acts
  · rw [hstart]
    exact h.acts.tail .startEngine

/-- A registry keeps its chain, its tracker and whether its engine drives timers. -/
theorem Step.chain_eq
    {g g' : Registry}
    (h : g.Step g') :
    g'.chain = g.chain ∧ g'.tracker = g.tracker ∧ g'.driven = g.driven := by
  have hreplace : ∀ key, (g.replace key).chain = g.chain ∧
      (g.replace key).tracker = g.tracker ∧ (g.replace key).driven = g.driven := by
    intro key
    unfold replace
    split <;> exact ⟨rfl, rfl, rfl⟩
  cases h with
  | drift | giveUp | start | halt | forget => exact ⟨rfl, rfl, rfl⟩
  | register key => exact hreplace key
  | remove key =>
      unfold Registry.remove
      split <;> exact ⟨rfl, rfl, rfl⟩
  | contains key =>
      unfold Registry.contains
      split
      · exact ⟨rfl, rfl, rfl⟩
      · split <;> exact ⟨rfl, rfl, rfl⟩

theorem Reaches.chain_eq
    {g g' : Registry}
    (h : g.Reaches g') :
    g'.chain = g.chain ∧ g'.tracker = g.tracker ∧ g'.driven = g.driven := by
  induction h with
  | refl => exact ⟨rfl, rfl, rfl⟩
  | tail _ h ih =>
      obtain ⟨hchain, htracker, hdriven⟩ := h.chain_eq
      exact ⟨hchain.trans ih.1, htracker.trans ih.2.1, hdriven.trans ih.2.2⟩

theorem Reaches.acts
    {g g' : Registry}
    (h : g.Reaches g') :
    Executor.Acts g.chain g.executor g'.executor := by
  induction h with
  | refl => exact .refl
  | tail hfirst h ih =>
      have hstep := h.acts
      rw [(Reaches.chain_eq hfirst).1] at hstep
      exact ih.trans hstep

end Registry
end Timetable
