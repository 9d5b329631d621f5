import Timetable.Proofs.Registry.Removal

/-!
# Looking at a registry

An entry whose timer was closed behind the registry's back stays in the map until
somebody looks: a look at a key drops that one entry, a look at all of them drops
every such entry, and a registration does so too.  A look touches nothing but the
map, so two registries that went through the same operations, one of which was
also looked at in between, differ in entries of closed timers only.

Such an entry counts for nothing in what a registry tells about its keys.  A removal
is the one operation that takes it for a registration: it answers that there was
one, unless somebody has looked before.

Main results:

* a registry that is looked at besides keeps all but entries of closed timers (Sighted.spare);
* what a registry tells about its keys agrees with itself, and no look changes the answer of
  an operation but of the removal of a key whose timer was found closed
  (looks_agree_and_change_nothing).
-/

namespace Timetable

/-- A list without elements that a filter does not keep is filtered alike. -/
theorem filter_eq_of_sublist
    {α : Type}
    {p : α → Bool}
    {l l' : List α}
    (sub : l'.Sublist l)
    (distinct : l.Nodup)
    (dropped : ∀ a ∈ l, a ∉ l' → p a = false) :
    l'.filter p = l.filter p := by
  induction sub with
  | slnil => rfl
  | @cons l' l a sub ih =>
      obtain ⟨hnew, htail⟩ := List.nodup_cons.1 distinct
      have ha : p a = false :=
        dropped a List.mem_cons_self fun hmem => hnew (sub.subset hmem)
      rw [List.filter_cons_of_neg (by simp [ha])]
      exact ih htail fun b hb hnot => dropped b (List.mem_cons_of_mem _ hb) hnot
  | @cons_cons l' l a sub ih =>
      obtain ⟨hnew, htail⟩ := List.nodup_cons.1 distinct
      have hrest : l'.filter p = l.filter p := by
        refine ih htail fun b hb hnot => dropped b (List.mem_cons_of_mem _ hb) ?_
        intro hmem
        rcases List.mem_cons.1 hmem with rfl | hmem
        · exact hnew hb
        · exact hnot hmem
      rw [List.filter_cons, List.filter_cons, hrest]

namespace Executor

/-- Closing a timer closes no other. -/
theorem isClosed_close_eq
    (e : Executor)
    (n m : Nat) :
    (e.close n).isClosed m = (e.isClosed m || decide (n = m)) := by
  unfold close
  cases ht : e.timers[n]? with
  | none =>
      by_cases hm : n = m
      · subst hm
        simp [isClosed, ht]
      · simp [hm]
  | some t =>
      have hn : n < e.timers.length := (List.getElem?_eq_some_iff.1 ht).1
      show ((e.timers.set n { t with closed := true })[m]?).all Timer.closed = _
      by_cases hm : n = m
      · subst hm
        simp [hn]
      · rw [List.getElem?_set_ne hm]
        simp [isClosed, hm]

theorem isClosed_of_timers
    {e e' : Executor}
    (timers : e'.timers = e.timers)
    (n : Nat) :
    e'.isClosed n = e.isClosed n := by
  unfold isClosed
  rw [timers]

/-- Waiting for trackers arms no timer. -/
theorem length_timers_waitFor
    (e : Executor)
    (trackers : List TrackerId)
    (farewell : Option LogLine)
    (limit : Nat) :
    (e.waitFor trackers farewell limit).1.timers.length = e.timers.length := by
  have hawait := (e.drifts_await trackers farewell).length_timers
  rcases e.drifts_waitFor trackers farewell limit with ⟨-, -, h⟩ | ⟨-, e₁, h, h'⟩
  · exact h.length_timers.trans hawait
  · exact (h'.length_timers.trans h.length_timers).trans hawait

end Executor

namespace Registry

/-- What an operation answers. -/
inductive Answer where
  | result (r : Except Refusal Unit)
  | verdict (b : Bool)
  | number (n : Nat)
  | keys (ks : List String)
  | done

/-- The answer of an operation. -/
def Operation.answer (g : Registry) : Operation → Answer
  | add key value script schedule => .result (g.add key value script schedule).1
  | addText key value script text => .result (g.addText key value script text).1
  | remove key => .verdict (g.remove key).1
  | contains key => .verdict (g.contains key).1
  | size => .number g.size.1
  | keys => .keys g.keys.1
  | start => .done
  | stop _ => .done
  | forceStop => .done

/-- A question about what is registered. -/
inductive Look where
  | contains (key : String)
  | size
  | isEmpty
  | keys

/-- The registry after a look. -/
def Look.perform (g : Registry) : Look → Registry
  | contains key => (g.contains key).2
  | size => g.size.2
  | isEmpty => g.isEmpty.2
  | keys => g.keys.2

/-- Two registries have gone through the same operations, and in between the same timers have
been closed in both; the second one has been looked at besides. -/
inductive Sighted (g₀ : Registry) : Registry → Registry → Prop
  | refl : Sighted g₀ g₀ g₀
  /-- A stop lets time pass, so what is closed meanwhile is not up to the registry. -/
  | operation
      {g g' : Registry}
      (before : Sighted g₀ g g')
      (o : Operation)
      (same : ∀ limit, o = .stop limit → ∀ n,
        (o.perform g').executor.isClosed n = (o.perform g).executor.isClosed n) :
      Sighted g₀ (o.perform g) (o.perform g')
  | meanwhile
      {g g' : Registry}
      {e e' : Executor}
      (before : Sighted g₀ g g')
      (drifts : g.executor.Drifts e)
      (drifts' : g'.executor.Drifts e')
      (same : ∀ n, e'.isClosed n = e.isClosed n) :
      Sighted g₀ (g.within e) (g'.within e')
  | look
      {g g' : Registry}
      (before : Sighted g₀ g g')
      (l : Look) :
      Sighted g₀ g (l.perform g')

/-- The second registry is the first one as far as answers go, with some entries of closed
timers spared. -/
structure Spare (g g' : Registry) : Prop where
  parser : g'.parser = g.parser
  running : g'.running = g.running
  timers : g'.executor.timers.length = g.executor.timers.length
  closed : ∀ n, g'.executor.isClosed n = g.executor.isClosed n
  sub : g'.entries.Sublist g.entries
  dropped : ∀ entry ∈ g.entries, entry ∉ g'.entries → g.executor.isClosed entry.2 = true

section Keys

variable {g g' : Registry} {key : String} {n : Nat}

theorem Owned.nodup_entries (h : g.Owned) : g.entries.Nodup :=
  h.keys.of_map _

/-- A key without timer has no entry to leave out. -/
theorem Owned.without_of_timer?_eq_none
    (h : g.Owned)
    (hnone : g.timer? key = none) :
    g.without key = g := by
  unfold without
  rw [List.filter_eq_self.2]
  rintro ⟨k, n⟩ hmem
  rw [bne_iff_ne]
  rintro rfl
  rw [h.timer?_eq_some_iff.2 hmem] at hnone
  cases hnone

theorem contains_iff :
    (g.contains key).1 = true ↔
      ∃ n, g.timer? key = some n ∧ g.executor.isClosed n = false := by
  unfold Registry.contains
  cases g.timer? key with
  | none => simp
  | some n => cases hclosed : g.executor.isClosed n <;> simp [hclosed]

theorem remove_iff : (g.remove key).1 = true ↔ ∃ n, g.timer? key = some n := by
  unfold Registry.remove
  cases g.timer? key <;> simp

theorem mem_keys_iff : key ∈ g.keys.1 ↔
    ∃ n, (key, n) ∈ g.entries ∧ g.executor.isClosed n = false := by
  simp [Registry.keys, prune, liveEntries]

/-- The keys of open timers stand in strict order. -/
theorem Owned.pairwise_keys (h : g.Owned) : g.keys.1.Pairwise (· < ·) := by
  have hsorted : g.keys.1.Pairwise fun a b => decide (a ≤ b) = true :=
    List.pairwise_mergeSort (fun a b c => by simpa using String.le_trans)
      (fun a b => by simpa using String.le_total a b) _
  have hdistinct : g.keys.1.Nodup :=
    (List.mergeSort_perm _ _).nodup_iff.2 (h.keys.sublist (List.filter_sublist.map _))
  refine (hsorted.and hdistinct).imp ?_
  rintro a b ⟨hle, hne⟩
  rw [decide_eq_true_iff] at hle
  exact String.not_le.1 fun hge => hne (String.le_antisymm hle hge)

theorem length_keys (g : Registry) : g.keys.1.length = g.size.1 := by
  simp [Registry.keys, size]

end Keys

/-- The timer that is armed is open, and the others are as before. -/
theorem isClosed_armed
    (g : Registry)
    (key : String)
    (value : Value)
    (script : Script)
    (schedule : Schedule)
    (n : Nat) :
    (g.armed key value script schedule).executor.isClosed n =
      if n = g.executor.timers.length then false else g.executor.isClosed n := by
  obtain ⟨timer, htimers, hopen⟩ : ∃ timer : Timer,
      (g.armed key value script schedule).executor.timers = g.executor.timers ++ [timer] ∧
      timer.closed = false := ⟨_, rfl, rfl⟩
  unfold Executor.isClosed
  rw [htimers]
  split
  · rename_i hn
    simp [hn, hopen]
  · rename_i hn
    rw [List.getElem?_append]
    split
    · rfl
    · rw [List.getElem?_eq_none (by simp; omega), List.getElem?_eq_none (by omega)]

/-- A stop lets time pass after a halt, and arms no timer. -/
theorem stop_eq_within
    (g : Registry)
    (running : g.running = true)
    (limit : Nat) :
    ∃ e, (g.stop limit).1 = { g with running := false }.within e ∧
      e.timers.length = g.executor.timers.length := by
  unfold stop
  rw [if_pos running]
  dsimp only
  split
  · exact ⟨_, rfl, Executor.length_timers_waitFor _ _ _ _⟩
  · exact ⟨_, rfl, Executor.length_timers_waitFor _ _ _ _⟩

namespace Spare

variable {g g' : Registry} {key : String}

theorem refl (g : Registry) : g.Spare g :=
  ⟨rfl, rfl, rfl, fun _ => rfl, .refl _, fun _ hmem hnot => absurd hmem hnot⟩

/-- A key has the same timer in both registries, or the second one has dropped the entry of a
closed timer. -/
theorem timer?_cases
    (h : g.Spare g')
    (owned : g.Owned)
    (owned' : g'.Owned)
    (key : String) :
    g'.timer? key = g.timer? key ∨
      ∃ n, g.timer? key = some n ∧ g.executor.isClosed n = true ∧ g'.timer? key = none := by
  cases htimer' : g'.timer? key with
  | some n =>
      have hmem := h.sub.subset (owned'.timer?_eq_some_iff.1 htimer')
      exact Or.inl (owned.timer?_eq_some_iff.2 hmem).symm
  | none =>
      cases htimer : g.timer? key with
      | none => exact Or.inl rfl
      | some n =>
          have hmem := owned.timer?_eq_some_iff.1 htimer
          refine Or.inr ⟨n, rfl, h.dropped _ hmem fun hmem' => ?_, rfl⟩
          rw [owned'.timer?_eq_some_iff.2 hmem'] at htimer'
          cases htimer'

/-- The open timers are the same. -/
theorem liveEntries
    (h : g.Spare g')
    (owned : g.Owned) :
    g'.liveEntries = g.liveEntries := by
  have hfilter : g'.entries.filter (fun entry => !g.executor.isClosed entry.2) =
      g.entries.filter fun entry => !g.executor.isClosed entry.2 := by
    refine filter_eq_of_sublist h.sub owned.nodup_entries ?_
    intro entry hmem hnot
    simp [h.dropped entry hmem hnot]
  unfold Registry.liveEntries
  rw [← hfilter]
  exact List.filter_congr fun entry _ => by rw [h.closed]

/-- Both executors go on; what was closed stays so. -/
theorem within
    (h : g.Spare g')
    (owned : g.Owned)
    {e e' : Executor}
    (later : g.executor.Later e)
    (timers : e'.timers.length = e.timers.length)
    (closed : ∀ n, e'.isClosed n = e.isClosed n) :
    (g.within e).Spare (g'.within e') := by
  refine ⟨h.parser, h.running, timers, closed, h.sub, ?_⟩
  intro entry hmem hnot
  exact later.isClosed (owned.entries entry.1 entry.2 hmem).1 (h.dropped entry hmem hnot)

/-- The timers are not touched in either registry. -/
theorem within_of_timers
    (h : g.Spare g')
    {e e' : Executor}
    (timers : e.timers = g.executor.timers)
    (timers' : e'.timers = g'.executor.timers) :
    (g.within e).Spare (g'.within e') := by
  have hclosed := Executor.isClosed_of_timers timers
  have hclosed' := Executor.isClosed_of_timers timers'
  refine ⟨h.parser, h.running, ?_, ?_, h.sub, ?_⟩
  · show e'.timers.length = e.timers.length
    rw [timers, timers', h.timers]
  · intro n
    show e'.isClosed n = e.isClosed n
    rw [hclosed, hclosed', h.closed]
  · intro entry hmem hnot
    exact (hclosed entry.2).trans (h.dropped entry hmem hnot)

/-- Further entries of closed timers are dropped from the second registry. -/
theorem forget
    (h : g.Spare g')
    (entries : List (String × Nat))
    (sub : entries.Sublist g'.entries)
    (closed : ∀ entry ∈ g'.entries, entry ∉ entries → g'.executor.isClosed entry.2 = true) :
    g.Spare { g' with entries := entries } := by
  refine ⟨h.parser, h.running, h.timers, h.closed, sub.trans h.sub, ?_⟩
  intro entry hmem hnot
  by_cases hmem' : entry ∈ g'.entries
  · exact (h.closed entry.2).symm.trans (closed entry hmem' hnot)
  · exact h.dropped entry hmem hmem'

/-- The entry of a key is left out of both registries. -/
theorem without
    (h : g.Spare g')
    (key : String) :
    (g.without key).Spare (g'.without key) := by
  refine ⟨h.parser, h.running, h.timers, h.closed, h.sub.filter _, ?_⟩
  intro entry hmem hnot
  obtain ⟨hmem, hkey⟩ := List.mem_filter.1 hmem
  exact h.dropped entry hmem fun hmem' => hnot (List.mem_filter.2 ⟨hmem', hkey⟩)

theorem prune
    (h : g.Spare g')
    (owned : g.Owned) :
    g.prune.Spare g'.prune := by
  have hlive : g'.prune.entries = g.prune.entries := h.liveEntries owned
  refine ⟨h.parser, h.running, h.timers, h.closed, ?_, ?_⟩
  · rw [hlive]
  · intro entry hmem hnot
    rw [hlive] at hnot
    exact absurd hmem hnot

/-- Both registries run from now on, or neither. -/
theorem run
    (h : g.Spare g')
    (running : Bool) :
    { g with running := running }.Spare { g' with running := running } :=
  ⟨h.parser, rfl, h.timers, h.closed, h.sub, h.dropped⟩

/-- The timer under a key is closed and forgotten in both registries.  Where the second one
has dropped its entry, the timer is closed already. -/
theorem shut
    (h : g.Spare g')
    (owned : g.Owned)
    (owned' : g'.Owned)
    (key : String) :
    (g.shut key).Spare (g'.shut key) := by
  unfold Registry.shut
  rcases h.timer?_cases owned owned' key with hsame | ⟨n, hn, hclosed, hnone⟩
  · rw [hsame]
    cases g.timer? key with
    | none => exact h
    | some n =>
        have hclose : (g.within (g.executor.close n)).Spare (g'.within (g'.executor.close n)) := by
          refine h.within owned (g.executor.later_close n) ?_ fun m => ?_
          · rw [Executor.length_timers_close, Executor.length_timers_close, h.timers]
          · rw [Executor.isClosed_close_eq, Executor.isClosed_close_eq, h.closed]
        exact hclose.without key
  · rw [hn, hnone]
    have hclose : (g.within (g.executor.close n)).Spare g' := by
      refine h.within owned (g.executor.later_close n) ?_ fun m => ?_
      · rw [Executor.length_timers_close, h.timers]
      · rw [Executor.isClosed_close_eq, h.closed]
        by_cases hm : n = m
        · simp [← hm, hclosed]
        · simp [hm]
    have hwithout := hclose.without key
    rw [owned'.without_of_timer?_eq_none hnone] at hwithout
    exact hwithout

/-- A timer is armed and kept under a key in both registries. -/
theorem armed
    (h : g.Spare g')
    (owned : g.Owned)
    (key : String)
    (value : Value)
    (script : Script)
    (schedule : Schedule) :
    (g.armed key value script schedule).Spare (g'.armed key value script schedule) := by
  have hclosed := g.isClosed_armed key value script schedule
  have hclosed' := g'.isClosed_armed key value script schedule
  obtain ⟨hentries, -, hlength, -⟩ := g.armed_spec key value script schedule
  obtain ⟨hentries', -, hlength', -⟩ := g'.armed_spec key value script schedule
  refine ⟨h.parser, h.running, ?_, fun n => ?_, ?_, ?_⟩
  · rw [hlength, hlength', h.timers]
  · rw [hclosed, hclosed', h.timers, h.closed]
  · rw [hentries, hentries', h.timers]
    exact h.sub.append_right _
  · intro entry hmem hnot
    rw [hentries, List.mem_append] at hmem
    rw [hentries', h.timers, List.mem_append, not_or] at hnot
    have hmem := hmem.resolve_right hnot.2
    have hold : entry.2 ≠ g.executor.timers.length :=
      Nat.ne_of_lt (owned.entries entry.1 entry.2 hmem).1
    rw [hclosed, if_neg hold]
    exact h.dropped entry hmem hnot.1

theorem register
    (h : g.Spare g')
    (owned : g.Owned)
    (owned' : g'.Owned)
    (key : String)
    (value : Value)
    (script : Script)
    (schedule : Schedule) :
    (g.register key value script schedule).Spare (g'.register key value script schedule) := by
  obtain ⟨events, hreplace⟩ := g.replace_eq_shut key
  obtain ⟨events', hreplace'⟩ := g'.replace_eq_shut key
  have hreplaced : (g.replace key).Spare (g'.replace key) := by
    rw [hreplace, hreplace']
    exact (h.shut owned owned' key).within_of_timers rfl rfl
  obtain ⟨hunused, hfree⟩ := owned.replace key
  have harmed := hreplaced.armed hunused key value script schedule
  have hpruned := harmed.prune (hunused.armed value script schedule hfree)
  exact hpruned.within_of_timers rfl rfl

theorem add
    (h : g.Spare g')
    (owned : g.Owned)
    (owned' : g'.Owned)
    (key : String)
    (value : Value)
    (script : Script)
    (schedule : Schedule) :
    (g.add key value script schedule).2.Spare (g'.add key value script schedule).2 := by
  have hnoted : (g.onExecutor (·.noteAll schedule.validate.events)).Spare
      (g'.onExecutor (·.noteAll schedule.validate.events)) := h.within_of_timers rfl rfl
  unfold Registry.add
  by_cases hkey : key = ""
  · rw [if_pos hkey, if_pos hkey]
    exact h
  · rw [if_neg hkey, if_neg hkey]
    dsimp only
    rcases schedule.validate.answer with c | _ | f
    · exact hnoted
    · refine hnoted.register ?_ ?_ key value script _
      · exact owned.drifts (g.executor.drifts_noteAll _)
      · exact owned'.drifts (g'.executor.drifts_noteAll _)
    · exact hnoted.within_of_timers rfl rfl

theorem addText
    (h : g.Spare g')
    (owned : g.Owned)
    (owned' : g'.Owned)
    (key : String)
    (value : Value)
    (script : Script)
    (text : String) :
    (g.addText key value script text).2.Spare (g'.addText key value script text).2 := by
  unfold Registry.addText
  rw [h.parser]
  rcases g.parser.parse text with (f | c) | e
  · exact h.within_of_timers rfl rfl
  · exact h
  · exact h.add owned owned' key value script _

theorem remove
    (h : g.Spare g')
    (owned : g.Owned)
    (owned' : g'.Owned)
    (key : String) :
    (g.remove key).2.Spare (g'.remove key).2 := by
  obtain ⟨events, hremove⟩ := g.remove_eq_shut key
  obtain ⟨events', hremove'⟩ := g'.remove_eq_shut key
  rw [hremove, hremove']
  exact (h.shut owned owned' key).within_of_timers rfl rfl

/-- Looking at a key may drop its entry from either registry. -/
theorem contains
    (h : g.Spare g')
    (owned : g.Owned)
    (owned' : g'.Owned)
    (key : String) :
    (g.contains key).2.Spare (g'.contains key).2 := by
  unfold Registry.contains
  rcases h.timer?_cases owned owned' key with hsame | ⟨n, hn, hclosed, hnone⟩
  · rw [hsame]
    cases g.timer? key with
    | none => exact h
    | some n =>
        dsimp only
        rw [h.closed]
        split
        · exact h.without key
        · exact h
  · have hwithout := h.without key
    rw [owned'.without_of_timer?_eq_none hnone] at hwithout
    rw [hn, hnone]
    simpa only [hclosed, if_true] using hwithout

theorem start (h : g.Spare g') : g.start.Spare g'.start := by
  unfold Registry.start
  rw [h.running]
  split
  · exact h
  · refine (h.run true).within_of_timers ?_ ?_
    · exact (g.executor.quiet_rearm g.signal).timers
    · exact (g'.executor.quiet_rearm g'.signal).timers

theorem halt (h : g.Spare g') : g.halt.Spare g'.halt :=
  (h.run false).within_of_timers rfl rfl

theorem forceStop (h : g.Spare g') : g.forceStop.Spare g'.forceStop := by
  unfold Registry.forceStop
  rw [h.running]
  split
  · exact h.halt.within_of_timers rfl rfl
  · exact h

/-- A stop lets time pass in both registries. -/
theorem stop
    (h : g.Spare g')
    (owned : g.Owned)
    (limit : Nat)
    (same : ∀ n, (g'.stop limit).1.executor.isClosed n = (g.stop limit).1.executor.isClosed n) :
    (g.stop limit).1.Spare (g'.stop limit).1 := by
  by_cases running : g.running = true
  · obtain ⟨e, hstop, hlength⟩ := g.stop_eq_within running limit
    obtain ⟨e', hstop', hlength'⟩ := g'.stop_eq_within (h.running.trans running) limit
    have hlater := (g.reaches_stop limit).acts.later
    rw [hstop] at hlater same ⊢
    rw [hstop'] at same ⊢
    refine (h.run false).within ⟨owned.keys, owned.entries, owned.owned, owned.jobs⟩ hlater ?_ same
    rw [hlength, hlength', h.timers]
  · have hidle : ∀ g : Registry, g.running ≠ true → (g.stop limit).1 = g := by
      intro g hg
      unfold Registry.stop
      rw [if_neg hg]
    rw [hidle g running, hidle g' (by rwa [h.running])]
    exact h

/-- **An operation of both registries keeps them alike**, if the same timers are closed in both
while a stop lasts. -/
theorem perform
    (h : g.Spare g')
    (owned : g.Owned)
    (owned' : g'.Owned)
    (o : Operation)
    (same : ∀ limit, o = .stop limit → ∀ n,
      (o.perform g').executor.isClosed n = (o.perform g).executor.isClosed n) :
    (o.perform g).Spare (o.perform g') := by
  cases o with
  | add key value script schedule => exact h.add owned owned' key value script schedule
  | addText key value script text => exact h.addText owned owned' key value script text
  | remove key => exact h.remove owned owned' key
  | contains key => exact h.contains owned owned' key
  | size => exact h.prune owned
  | keys => exact h.prune owned
  | start => exact h.start
  | stop limit => exact h.stop owned limit (same limit rfl)
  | forceStop => exact h.forceStop

/-- A removal answers alike, unless it finds an entry that the second registry has dropped. -/
theorem remove_answer_iff
    (h : g.Spare g')
    (owned : g.Owned)
    (owned' : g'.Owned)
    (key : String) :
    (g'.remove key).1 = (g.remove key).1 ↔
      ¬ ∃ n, g.timer? key = some n ∧ g.executor.isClosed n = true ∧ g'.timer? key = none := by
  rw [Bool.eq_iff_iff, remove_iff, remove_iff]
  rcases h.timer?_cases owned owned' key with hsame | ⟨n, hn, hclosed, hnone⟩
  · rw [hsame]
    simp only [true_iff, not_exists, not_and]
    intro n hn _ hnone
    rw [hn] at hnone
    cases hnone
  · simp [hn, hclosed, hnone]

/-- Whether a key has an open timer is the same. -/
theorem contains_answer
    (h : g.Spare g')
    (owned : g.Owned)
    (owned' : g'.Owned)
    (key : String) :
    (g'.contains key).1 = (g.contains key).1 := by
  rw [Bool.eq_iff_iff, contains_iff, contains_iff]
  simp only [h.closed]
  rcases h.timer?_cases owned owned' key with hsame | ⟨n, hn, hclosed, hnone⟩
  · rw [hsame]
  · simp [hn, hclosed, hnone]

theorem add_answer
    (g g' : Registry)
    (key : String)
    (value : Value)
    (script : Script)
    (schedule : Schedule) :
    (g'.add key value script schedule).1 = (g.add key value script schedule).1 := by
  unfold Registry.add
  by_cases hkey : key = ""
  · rw [if_pos hkey, if_pos hkey]
  · rw [if_neg hkey, if_neg hkey]
    dsimp only
    rcases schedule.validate.answer with c | _ | f <;> rfl

/-- **Both registries answer an operation alike**, unless it is the removal of a key whose entry
only the second one has dropped. -/
theorem answer_iff
    (h : g.Spare g')
    (owned : g.Owned)
    (owned' : g'.Owned)
    (o : Operation) :
    o.answer g' = o.answer g ↔
      ¬ ∃ key n, o = .remove key ∧ g.timer? key = some n ∧
        g.executor.isClosed n = true ∧ g'.timer? key = none := by
  have hlive := h.liveEntries owned
  cases o with
  | remove key =>
      have hremove := h.remove_answer_iff owned owned' key
      simpa [Operation.answer] using hremove
  | add key value script schedule =>
      simp [Operation.answer, add_answer g g']
  | addText key value script text =>
      have hsame : (g'.addText key value script text).1 = (g.addText key value script text).1 := by
        unfold Registry.addText
        rw [h.parser]
        rcases g.parser.parse text with (f | c) | e
        · rfl
        · rfl
        · exact add_answer g g' key value script _
      simp [Operation.answer, hsame]
  | contains key => simp [Operation.answer, h.contains_answer owned owned' key]
  | size => simp [Operation.answer, size, Registry.prune, hlive]
  | keys => simp [Operation.answer, Registry.keys, Registry.prune, hlive]
  | start | stop | forceStop => simp [Operation.answer]

end Spare

section Looks

variable {g g' : Registry}

/-- A look drops entries of closed timers, and does nothing else. -/
theorem Look.perform_eq
    (owned : g.Owned)
    (l : Look) :
    ∃ entries, l.perform g = { g with entries := entries } ∧ entries.Sublist g.entries ∧
      ∀ entry ∈ g.entries, entry ∉ entries → g.executor.isClosed entry.2 = true := by
  cases l with
  | contains key =>
      show ∃ entries, (g.contains key).2 = _ ∧ _
      unfold Registry.contains
      cases htimer : g.timer? key with
      | none => exact ⟨g.entries, rfl, .refl _, fun _ hmem hnot => absurd hmem hnot⟩
      | some n =>
          dsimp only
          split
          · rename_i hclosed
            refine ⟨(g.without key).entries, rfl, List.filter_sublist, ?_⟩
            intro entry hmem hnot
            rw [owned.eq_of_not_mem_without htimer hmem hnot]
            exact hclosed
          · exact ⟨g.entries, rfl, .refl _, fun _ hmem hnot => absurd hmem hnot⟩
  | size | isEmpty | keys =>
      exact ⟨g.liveEntries, rfl, List.filter_sublist,
        fun _ => g.isClosed_of_not_mem_liveEntries⟩

theorem Look.reaches
    (owned : g.Owned)
    (l : Look) :
    g.Reaches (l.perform g) := by
  obtain ⟨entries, heq, sub, closed⟩ := l.perform_eq owned
  rw [heq]
  exact .single (.forget entries sub closed)

/-- **A registry that is looked at besides keeps all but entries of closed timers.** -/
theorem Sighted.spare
    {g₀ : Registry}
    (owned : g₀.Owned)
    (h : g₀.Sighted g g') :
    g₀.Reaches g ∧ g₀.Reaches g' ∧ g.Spare g' := by
  induction h with
  | refl => exact ⟨.refl, .refl, .refl g₀⟩
  | @operation g g' before o same ih =>
      obtain ⟨hreaches, hreaches', hspare⟩ := ih
      exact ⟨hreaches.trans (g.reaches_perform o), hreaches'.trans (g'.reaches_perform o),
        hspare.perform (owned.reaches hreaches) (owned.reaches hreaches') o same⟩
  | @meanwhile g g' e e' before drifts drifts' same ih =>
      obtain ⟨hreaches, hreaches', hspare⟩ := ih
      refine ⟨hreaches.trans (g.reaches_of_drifts drifts),
        hreaches'.trans (g'.reaches_of_drifts drifts'), ?_⟩
      refine hspare.within (owned.reaches hreaches) drifts.later ?_ same
      rw [drifts.length_timers, drifts'.length_timers, hspare.timers]
  | @look g g' before l ih =>
      obtain ⟨hreaches, hreaches', hspare⟩ := ih
      have owned' := owned.reaches hreaches'
      obtain ⟨entries, heq, sub, closed⟩ := l.perform_eq owned'
      refine ⟨hreaches, hreaches'.trans (l.reaches owned'), ?_⟩
      rw [heq]
      exact hspare.forget entries sub closed

end Looks

/-- **What a registry tells about its keys agrees with itself**, but for a removal, which takes
the entry of a closed timer for a registration.  Looks change nothing but the map, and however
many of them are put in between operations, they change the answer of no operation but of such
a removal. -/
theorem looks_agree_and_change_nothing
    {g₀ : Registry}
    (entries : g₀.entries = [])
    (timers : g₀.executor.timers = []) :
    (∀ g, g₀.Reaches g →
      (∀ key, (g.contains key).1 = true ↔ key ∈ g.keys.1) ∧
      g.size.1 = g.keys.1.length ∧
      (g.isEmpty.1 = true ↔ g.keys.1 = []) ∧
      g.keys.1.Pairwise (· < ·) ∧
      ∀ key, (g.remove key).1 = (g.contains key).1 ↔
        ¬ ∃ n, g.timer? key = some n ∧ g.executor.isClosed n = true) ∧
    ∀ g g', g₀.Sighted g g' →
      (∀ l : Look, (l.perform g').executor = g'.executor) ∧
      g'.running = g.running ∧
      g'.isEmpty.1 = g.isEmpty.1 ∧
      ∀ o : Operation, o.answer g' = o.answer g ↔
        ¬ ∃ key n, o = .remove key ∧ g.timer? key = some n ∧
          g.executor.isClosed n = true ∧ g'.timer? key = none := by
  have howned₀ : g₀.Owned := .of_untouched entries timers
  refine ⟨fun g hreaches => ?_, fun g g' hsighted => ?_⟩
  · have howned := howned₀.reaches hreaches
    refine ⟨fun key => ?_, g.length_keys.symm, ?_, howned.pairwise_keys, fun key => ?_⟩
    · rw [contains_iff, mem_keys_iff]
      simp only [howned.timer?_eq_some_iff]
    · show (g.size.1 == 0) = true ↔ _
      rw [beq_iff_eq, ← g.length_keys, List.length_eq_zero_iff]
    · rw [Bool.eq_iff_iff, remove_iff, contains_iff]
      cases g.timer? key with
      | none => simp
      | some n => cases g.executor.isClosed n <;> simp
  · obtain ⟨hreaches, hreaches', hspare⟩ := hsighted.spare howned₀
    have howned := howned₀.reaches hreaches
    have howned' := howned₀.reaches hreaches'
    refine ⟨fun l => ?_, hspare.running, ?_, hspare.answer_iff howned howned'⟩
    · obtain ⟨entries, heq, -⟩ := l.perform_eq howned'
      rw [heq]
    · simp [isEmpty, size, prune, hspare.liveEntries howned]

/-- A registry that runs, and in which a job for an instant long past has been added and its
timer has found that there is nothing to wait for. -/
def spent : Registry :=
  let added := (Operation.add "once" .null (Script.ofList []) (.once .epoch false)).perform
    (Operation.start.perform untouched)
  added.onExecutor Executor.settle

theorem reaches_spent : untouched.Reaches spent := by
  have hadded := (untouched.reaches_perform .start).trans
    ((Operation.start.perform untouched).reaches_perform
      (.add "once" .null (Script.ofList []) (.once .epoch false)))
  exact hadded.trans (reaches_of_drifts _ (Executor.drifts_settle _))

theorem looks_agree_and_change_nothing_cleaning :
    untouched.entries = [] ∧
      untouched.executor.timers = [] ∧
      untouched.Reaches cleaning ∧
      (cleaning.remove "cleanup").1 = (cleaning.contains "cleanup").1 ∧
      untouched.Sighted (cleaning.remove "cleanup").2
        ((Look.keys.perform cleaning).remove "cleanup").2 ∧
      Operation.size.answer ((Look.keys.perform cleaning).remove "cleanup").2 =
        Operation.size.answer (cleaning.remove "cleanup").2 := by
  have hreaches : untouched.Reaches cleaning := untouched.reaches_perform _
  have hempty : untouched.entries = [] := rfl
  obtain ⟨hagree, hnothing⟩ := looks_agree_and_change_nothing hempty rfl
  have hcleaning : untouched.Sighted cleaning cleaning :=
    .operation .refl _ fun _ hstop => by cases hstop
  have hsighted : untouched.Sighted (cleaning.remove "cleanup").2
      ((Look.keys.perform cleaning).remove "cleanup").2 :=
    .operation (hcleaning.look .keys) (.remove "cleanup") fun _ hstop => by cases hstop
  refine ⟨rfl, rfl, hreaches, ?_, hsighted, ?_⟩
  · refine ((hagree cleaning hreaches).2.2.2.2 "cleanup").2 ?_
    rintro ⟨n, hn, hclosed⟩
    have hzero : cleaning.timer? "cleanup" = some 0 := by decide +kernel
    obtain rfl := Option.some.inj (hzero.symm.trans hn)
    exact absurd hclosed (by decide +kernel)
  · refine ((hnothing _ _ hsighted).2.2.2 .size).2 ?_
    rintro ⟨key, n, hsize, -⟩
    cases hsize

/-- The removal of a key whose timer is closed answers that there was a registration, though
there is none; after a look it answers that there was none. -/
theorem removal_of_spent :
    untouched.Reaches spent ∧
      (spent.contains "once").1 = false ∧
      spent.keys.1 = [] ∧
      (spent.remove "once").1 = true ∧
      ((Look.contains "once").perform spent |>.remove "once").1 = false ∧
      ∃ g g', untouched.Sighted g g' ∧
        (Operation.remove "once").answer g' ≠ (Operation.remove "once").answer g := by
  have hbare : (spent.remove "once").1 = true := by decide +kernel
  have hseen : ((Look.contains "once").perform spent |>.remove "once").1 = false := by
    decide +kernel
  have hspent : untouched.Sighted spent spent := by
    have hstarted : untouched.Sighted (Operation.start.perform untouched)
        (Operation.start.perform untouched) := .operation .refl _ (by simp)
    have hadded := hstarted.operation
      (.add "once" .null (Script.ofList []) (.once .epoch false)) (by simp)
    exact hadded.meanwhile (Executor.drifts_settle _) (Executor.drifts_settle _) fun _ => rfl
  refine ⟨reaches_spent, by decide +kernel, by decide +kernel, hbare, hseen, spent, _,
    hspent.look (.contains "once"), ?_⟩
  simp only [Operation.answer, hbare, hseen]
  simp

end Registry
end Timetable
