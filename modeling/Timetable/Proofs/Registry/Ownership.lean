import Timetable.Proofs.Registry.Steps
import Timetable.Registry.Builder

/-!
# Who owns a timer

The handle of a timer is its place in the table.  A registry is the only one who
arms timers for its engine, and every timer that is not closed stands in its map
under the key of its job.  Each way out of the map is open to closed timers only:
what is replaced or removed is closed on the way, and what is forgotten was found
closed.

Main results:

* every step keeps the ownership of the timers (Owned.step);
* so does every run of a registry that began without timers, and at most one
  timer of a key is live, none after its replacement or removal, and none at all
  after the registry has been dropped (live_timers_owned).
-/

namespace Timetable

namespace Executor

/-- The timer has been armed and is not closed. -/
def Live (e : Executor) (n : Nat) : Prop :=
  n < e.timers.length ∧ e.isClosed n = false

/-- The key of the job for which a timer has been armed. -/
def handleKey (e : Executor) (n : Nat) : String :=
  ((e.timers[n]?).map fun t => e.jobKey t.job).getD ""

/-- The timers have been armed for jobs that there are. -/
def ArmedForJobs (e : Executor) : Prop :=
  ∀ (n : Nat) (t : Timer), e.timers[n]? = some t → t.job < e.jobs.length

/-- A timer keeps its key. -/
theorem Later.handleKey
    {e e' : Executor}
    (h : e.Later e')
    (hjobs : e.ArmedForJobs)
    {n : Nat}
    (hn : n < e.timers.length) :
    e'.handleKey n = e.handleKey n := by
  have ht : e.timers[n]? = some e.timers[n] := List.getElem?_eq_getElem hn
  obtain ⟨t', ht', hk⟩ := h.timers n _ ht
  simp only [Executor.handleKey, ht, ht', Option.map_some, Option.getD_some, hk.job]
  exact h.keys _ (hjobs n _ ht)

/-- A closed timer stays closed. -/
theorem Later.isClosed
    {e e' : Executor}
    (h : e.Later e')
    {n : Nat}
    (hn : n < e.timers.length)
    (hclosed : e.isClosed n = true) :
    e'.isClosed n = true := by
  have ht : e.timers[n]? = some e.timers[n] := List.getElem?_eq_getElem hn
  obtain ⟨t', ht', hk⟩ := h.timers n _ ht
  simp only [Executor.isClosed, ht, ht', Option.all_some] at hclosed ⊢
  exact hk.closed hclosed

theorem Later.armedForJobs
    {e e' : Executor}
    (h : e.Later e')
    (hlength : e'.timers.length = e.timers.length)
    (hjobs : e.ArmedForJobs) :
    e'.ArmedForJobs := by
  intro n t' ht'
  have hn : n < e.timers.length := by
    rw [← hlength]
    exact (List.getElem?_eq_some_iff.1 ht').1
  have ht : e.timers[n]? = some e.timers[n] := List.getElem?_eq_getElem hn
  obtain ⟨t'', ht'', hk⟩ := h.timers n _ ht
  rw [ht', Option.some.injEq] at ht''
  rw [ht'', hk.job]
  exact Nat.lt_of_lt_of_le (hjobs n _ ht) h.jobs

theorem length_timers_close
    (e : Executor)
    (n : Nat) :
    (e.close n).timers.length = e.timers.length := by
  unfold close
  split
  · rfl
  · exact List.length_set ..

end Executor

namespace Registry

/-- Every timer is closed or stands in the map under its key, and the map has nothing else. -/
structure Owned (g : Registry) : Prop where
  keys : (g.entries.map Prod.fst).Nodup
  entries : ∀ key n, (key, n) ∈ g.entries →
    n < g.executor.timers.length ∧ g.executor.handleKey n = key
  owned : ∀ n, g.executor.Live n → (g.executor.handleKey n, n) ∈ g.entries
  jobs : g.executor.ArmedForJobs

/-- A registry that has no timers owns them all. -/
theorem Owned.of_untouched
    {g : Registry}
    (entries : g.entries = [])
    (timers : g.executor.timers = []) :
    g.Owned := by
  refine ⟨by simp [entries], by simp [entries], ?_, ?_⟩
  · rintro n ⟨hn, -⟩
    simp [timers] at hn
  · intro n t ht
    simp [timers] at ht

/-- What holds of the entries is not affected by a later state without further timers. -/
theorem Owned.within
    {g : Registry}
    (h : g.Owned)
    {e : Executor}
    (later : g.executor.Later e)
    (length : e.timers.length = g.executor.timers.length) :
    (g.within e).Owned := by
  refine ⟨h.keys, ?_, ?_, later.armedForJobs length h.jobs⟩
  · intro key n hmem
    obtain ⟨hn, hkey⟩ := h.entries key n hmem
    refine ⟨by rw [← length] at hn; exact hn, ?_⟩
    exact (later.handleKey h.jobs hn).trans hkey
  · rintro n ⟨hn, hopen⟩
    have hn' : n < g.executor.timers.length := by
      rw [← length]
      exact hn
    have hlive : g.executor.Live n := by
      refine ⟨hn', ?_⟩
      by_contra hclosed
      rw [Bool.not_eq_false] at hclosed
      have := later.isClosed hn' hclosed
      rw [show e.isClosed n = false from hopen] at this
      simp at this
    show (e.handleKey n, n) ∈ g.entries
    rw [later.handleKey h.jobs hn']
    exact h.owned n hlive

theorem Owned.drifts
    {g : Registry}
    (h : g.Owned)
    {e : Executor}
    (drifts : g.executor.Drifts e) :
    (g.within e).Owned :=
  h.within drifts.later drifts.length_timers

/-- The entry of a key is the only one. -/
theorem Owned.timer?_eq_some_iff
    {g : Registry}
    (h : g.Owned)
    {key : String}
    {n : Nat} :
    g.timer? key = some n ↔ (key, n) ∈ g.entries := by
  unfold timer?
  rw [Option.map_eq_some_iff]
  constructor
  · rintro ⟨⟨key', n'⟩, hfind, rfl⟩
    have hkey : key' = key := by simpa using List.find?_some hfind
    exact hkey ▸ List.mem_of_find?_eq_some hfind
  · intro hmem
    cases hfind : g.entries.find? fun entry => entry.1 == key with
    | none =>
        have := List.find?_eq_none.1 hfind _ hmem
        simp at this
    | some entry =>
        refine ⟨entry, rfl, ?_⟩
        have hkey : entry.1 = key := by simpa using List.find?_some hfind
        have hmem' := List.mem_of_find?_eq_some hfind
        have hsame := List.inj_on_of_nodup_map h.keys hmem' hmem hkey
        rw [hsame]

/-- Closed timers may be forgotten. -/
theorem Owned.forget
    {g : Registry}
    (h : g.Owned)
    (entries : List (String × Nat))
    (sub : entries.Sublist g.entries)
    (closed : ∀ entry ∈ g.entries, entry ∉ entries → g.executor.isClosed entry.2 = true) :
    { g with entries := entries }.Owned := by
  refine ⟨h.keys.sublist (sub.map _), ?_, ?_, h.jobs⟩
  · intro key n hmem
    exact h.entries key n (sub.subset hmem)
  · rintro n ⟨hn, hopen⟩
    have hmem := h.owned n ⟨hn, hopen⟩
    by_contra hnot
    have := closed _ hmem hnot
    rw [show g.executor.isClosed n = false from hopen] at this
    simp at this

/-- What is left out with a key is the entry of its timer. -/
theorem Owned.eq_of_not_mem_without
    {g : Registry}
    (h : g.Owned)
    {key : String}
    {n : Nat}
    (hn : g.timer? key = some n)
    {entry : String × Nat}
    (hmem : entry ∈ g.entries)
    (hnot : entry ∉ (g.without key).entries) :
    entry = (key, n) := by
  obtain ⟨key', m⟩ := entry
  obtain rfl : key' = key := by
    by_contra hne
    exact hnot (List.mem_filter.2 ⟨hmem, by simpa using hne⟩)
  rw [Option.some.inj (hn.symm.trans (h.timer?_eq_some_iff.2 hmem))]

/-- The timer under a key may be closed and forgotten. -/
theorem Owned.close_without
    {g : Registry}
    (h : g.Owned)
    {key : String}
    {n : Nat}
    (hn : g.timer? key = some n) :
    ((g.without key).onExecutor (·.close n)).Owned := by
  have hclosed : (g.within (g.executor.close n)).Owned :=
    h.within (g.executor.later_close n) (g.executor.length_timers_close n)
  refine hclosed.forget (g.without key).entries List.filter_sublist ?_
  intro entry hmem hnot
  rw [h.eq_of_not_mem_without hn hmem hnot]
  exact Executor.isClosed_close _ _

/-- The timer under a key is closed and forgotten. -/
def shut (g : Registry) (key : String) : Registry :=
  match g.timer? key with
  | none => g
  | some n => (g.without key).onExecutor (·.close n)

/-- What is replaced is closed and forgotten, and that is all but for the journal. -/
theorem replace_eq_shut
    (g : Registry)
    (key : String) :
    ∃ events, g.replace key = (g.shut key).onExecutor (·.noteAll events) := by
  unfold replace shut
  cases g.timer? key with
  | none => exact ⟨[], rfl⟩
  | some n => exact ⟨[_], rfl⟩

/-- So is what is removed. -/
theorem remove_eq_shut
    (g : Registry)
    (key : String) :
    ∃ events, (g.remove key).2 = (g.shut key).onExecutor (·.noteAll events) := by
  unfold Registry.remove shut
  cases g.timer? key with
  | none => exact ⟨[], rfl⟩
  | some n => exact ⟨[_, _], rfl⟩

theorem Owned.shut
    {g : Registry}
    (h : g.Owned)
    (key : String) :
    (g.shut key).Owned ∧ ∀ n, (key, n) ∉ (g.shut key).entries := by
  unfold Registry.shut
  split
  · rename_i hnone
    refine ⟨h, ?_⟩
    intro n hmem
    rw [h.timer?_eq_some_iff.2 hmem] at hnone
    simp at hnone
  · rename_i n hn
    refine ⟨h.close_without hn, ?_⟩
    intro m hmem
    have hfilter := (List.mem_filter.1 hmem).2
    simp at hfilter

theorem Owned.replace
    {g : Registry}
    (h : g.Owned)
    (key : String) :
    (g.replace key).Owned ∧ ∀ n, (key, n) ∉ (g.replace key).entries := by
  obtain ⟨events, hreplace⟩ := g.replace_eq_shut key
  obtain ⟨howned, hunused⟩ := h.shut key
  rw [hreplace]
  exact ⟨howned.drifts (Executor.drifts_noteAll _ events), hunused⟩

theorem Owned.remove
    {g : Registry}
    (h : g.Owned)
    (key : String) :
    (g.remove key).2.Owned ∧ ∀ n, (key, n) ∉ (g.remove key).2.entries := by
  obtain ⟨events, hremove⟩ := g.remove_eq_shut key
  obtain ⟨howned, hunused⟩ := h.shut key
  rw [hremove]
  exact ⟨howned.drifts (Executor.drifts_noteAll _ events), hunused⟩

theorem Owned.contains
    {g : Registry}
    (h : g.Owned)
    (key : String) :
    (g.contains key).2.Owned := by
  unfold Registry.contains
  split
  · exact h
  · rename_i n hn
    split
    · rename_i hclosed
      refine h.forget (g.without key).entries List.filter_sublist ?_
      intro entry hmem hnot
      rw [h.eq_of_not_mem_without hn hmem hnot]
      exact hclosed
    · exact h

/-- The timer that is armed has the key of its job, and all others are as before. -/
theorem armed_spec
    (g : Registry)
    (key : String)
    (value : Value)
    (script : Script)
    (schedule : Schedule) :
    let g' := g.armed key value script schedule
    let n := g.executor.timers.length
    g'.entries = g.entries ++ [(key, n)] ∧
      g.executor.Later g'.executor ∧
      g'.executor.timers.length = n + 1 ∧
      g'.executor.handleKey n = key ∧
      (g.executor.ArmedForJobs → g'.executor.ArmedForJobs) := by
  have hlater : g.executor.Later (g.armed key value script schedule).executor :=
    (g.executor.later_addJob g.chain key value script).trans (Executor.later_arm _ _ _ _)
  have htimers : ∃ timer : Timer,
      (g.armed key value script schedule).executor.timers = g.executor.timers ++ [timer] ∧
      timer.job = g.executor.jobs.length := ⟨_, rfl, rfl⟩
  have hjobs : ∃ job : Job,
      (g.armed key value script schedule).executor.jobs = g.executor.jobs ++ [job] ∧
      job.task.key = key := ⟨_, rfl, rfl⟩
  obtain ⟨timer, htimers, htimer⟩ := htimers
  obtain ⟨job, hjobs, hjob⟩ := hjobs
  refine ⟨rfl, hlater, by rw [htimers]; simp, ?_, ?_⟩
  · simp [Executor.handleKey, Executor.jobKey, htimers, htimer, hjobs, hjob]
  · intro hold n t ht
    rw [hjobs, List.length_append, List.length_singleton]
    rw [htimers] at ht
    rcases Executor.getElem?_concat_cases ht with ht | ⟨-, hEq⟩
    · exact Nat.lt_succ_of_lt (hold n t ht)
    · rw [hEq, htimer]
      exact Nat.lt_succ_self _

/-- A timer may be armed for a key that is not in use. -/
theorem Owned.armed
    {g : Registry}
    (h : g.Owned)
    {key : String}
    (value : Value)
    (script : Script)
    (schedule : Schedule)
    (hunused : ∀ n, (key, n) ∉ g.entries) :
    (g.armed key value script schedule).Owned := by
  obtain ⟨hentries, hlater, hlength, hkey, hjobs⟩ := g.armed_spec key value script schedule
  refine ⟨?_, ?_, ?_, hjobs h.jobs⟩
  · rw [hentries, List.map_append, List.nodup_append]
    refine ⟨h.keys, by simp, ?_⟩
    intro a ha b hb hab
    obtain ⟨⟨key', n⟩, hmem, rfl⟩ := List.mem_map.1 ha
    simp only [List.map_cons, List.map_nil, List.mem_singleton] at hb
    simp only at hab
    rw [hab, hb] at hmem
    exact hunused n hmem
  · intro key' n hmem
    rw [hentries, List.mem_append, List.mem_singleton] at hmem
    rcases hmem with hmem | hmem
    · obtain ⟨hn, hkey'⟩ := h.entries key' n hmem
      exact ⟨by rw [hlength]; omega, (hlater.handleKey h.jobs hn).trans hkey'⟩
    · cases hmem
      exact ⟨by rw [hlength]; omega, hkey⟩
  · rintro n ⟨hn, hopen⟩
    rw [hentries, List.mem_append, List.mem_singleton]
    rcases Nat.lt_or_ge n g.executor.timers.length with hold | hnew
    · have hlive : g.executor.Live n := by
        refine ⟨hold, ?_⟩
        by_contra hclosed
        rw [Bool.not_eq_false] at hclosed
        have := hlater.isClosed hold hclosed
        rw [hopen] at this
        simp at this
      rw [hlater.handleKey h.jobs hold]
      exact Or.inl (h.owned n hlive)
    · obtain rfl : n = g.executor.timers.length := by omega
      rw [hkey]
      exact Or.inr rfl

/-- **Every step keeps the ownership of the timers.** -/
theorem Owned.step
    {g g' : Registry}
    (h : g.Owned)
    (step : g.Step g') :
    g'.Owned := by
  cases step with
  | drift hdrift => exact h.drifts (.single hdrift)
  | giveUp n => exact h.within (Executor.later_of_eq rfl rfl rfl rfl (.of_eq rfl)) rfl
  | start _ hdrifts =>
      have hrearm := (g.executor.quiet_rearm g.signal)
      have hrearmed : (g.within (g.executor.rearm g.signal)).Owned :=
        h.within hrearm.later (congrArg List.length hrearm.timers)
      have hstarted := (hrearmed.drifts hdrifts).within (Executor.later_startEngine _) rfl
      exact ⟨hstarted.keys, hstarted.entries, hstarted.owned, hstarted.jobs⟩
  | halt _ hdrifts =>
      have hhalted : (g.within g.executor.stopEngine).Owned :=
        h.within (Executor.later_of_eq rfl rfl rfl rfl (.of_eq rfl)) rfl
      have htriggered := (hhalted.drifts hdrifts).within
        (e := Executor.trigger _ g.signal) (Executor.later_of_eq rfl rfl rfl rfl (.of_eq rfl)) rfl
      exact ⟨htriggered.keys, htriggered.entries, htriggered.owned, htriggered.jobs⟩
  | register key value script schedule hdrifts =>
      obtain ⟨hreplaced, hunused⟩ := h.replace key
      exact (hreplaced.drifts hdrifts).armed value script schedule hunused
  | remove key => exact (h.remove key).1
  | contains key => exact h.contains key
  | forget entries sub closed => exact h.forget entries sub closed

theorem Owned.reaches
    {g g' : Registry}
    (h : g.Owned)
    (reaches : g.Reaches g') :
    g'.Owned := by
  induction reaches with
  | refl => exact h
  | tail _ step ih => exact ih.step step

/-- A live timer has the entry of its key. -/
theorem Owned.timer?_of_live
    {g : Registry}
    (h : g.Owned)
    {n : Nat}
    (hn : g.executor.Live n) :
    g.timer? (g.executor.handleKey n) = some n :=
  h.timer?_eq_some_iff.2 (h.owned n hn)

/-- A key without entry has no live timer, now or after a drift. -/
theorem Owned.not_live_of_unused
    {g : Registry}
    (h : g.Owned)
    {key : String}
    (hunused : ∀ n, (key, n) ∉ g.entries)
    {e : Executor}
    (drifts : g.executor.Drifts e)
    {n : Nat}
    (hkey : e.handleKey n = key) :
    ¬ e.Live n := by
  intro hlive
  have hmem := (h.drifts drifts).owned n hlive
  rw [show (g.within e).executor.handleKey n = key from hkey] at hmem
  exact hunused n hmem

theorem foldl_close
    (e : Executor)
    (entries : List (String × Nat)) :
    let e' := entries.foldl (fun e entry => e.close entry.2) e
    e.Later e' ∧ e'.timers.length = e.timers.length ∧
      ∀ entry ∈ entries, entry.2 < e.timers.length → e'.isClosed entry.2 = true := by
  induction entries generalizing e with
  | nil => exact ⟨.refl e, rfl, by simp⟩
  | cons entry entries ih =>
      obtain ⟨hlater, hlength, hclosed⟩ := ih (e.close entry.2)
      have hlength' := e.length_timers_close entry.2
      refine ⟨(e.later_close entry.2).trans hlater, hlength.trans hlength', ?_⟩
      intro other hmem hn
      rw [← hlength'] at hn
      rcases List.mem_cons.1 hmem with rfl | hmem
      · exact hlater.isClosed hn (e.isClosed_close other.2)
      · exact hclosed other hmem hn

/-- After the registry has been dropped no timer is live. -/
theorem Owned.drop
    {g : Registry}
    (h : g.Owned)
    {e : Executor}
    (drifts : g.drop.executor.Drifts e)
    (n : Nat) :
    ¬ e.Live n := by
  obtain ⟨hlater, hlength, hclosed⟩ := foldl_close g.executor g.entries
  have hdrop : g.drop.Owned := by
    have hclosing := h.within hlater hlength
    refine hclosing.forget [] (List.nil_sublist _) ?_
    intro entry hmem _
    exact hclosed entry hmem (h.entries entry.1 entry.2 hmem).1
  exact hdrop.not_live_of_unused (by simp [Registry.drop]) drifts rfl

/-- **In every run of a registry the live timers are those in its map.**  A key has one live
timer at most; it has none once its timer has been replaced, before the next one is armed,
and none once it has been removed, and no timer is live once the registry is dropped. -/
theorem live_timers_owned
    {g₀ g : Registry}
    (entries : g₀.entries = [])
    (timers : g₀.executor.timers = [])
    (h : g₀.Reaches g) :
    (∀ o : Operation, g₀.Reaches (o.perform g)) ∧
      (∀ n < g.executor.timers.length,
        g.executor.isClosed n = true ∨ g.timer? (g.executor.handleKey n) = some n) ∧
      (∀ m n, g.executor.Live m → g.executor.Live n →
        g.executor.handleKey m = g.executor.handleKey n → m = n) ∧
      (∀ key e n, (g.replace key).executor.Drifts e → e.handleKey n = key → ¬ e.Live n) ∧
      (∀ key e n, (g.remove key).2.executor.Drifts e → e.handleKey n = key → ¬ e.Live n) ∧
      (∀ e n, g.drop.executor.Drifts e → ¬ e.Live n) := by
  have howned : g.Owned := (Owned.of_untouched entries timers).reaches h
  refine ⟨fun o => h.trans (g.reaches_perform o), ?_, ?_, ?_, ?_, ?_⟩
  · intro n hn
    by_cases hclosed : g.executor.isClosed n = true
    · exact Or.inl hclosed
    · exact Or.inr (howned.timer?_of_live ⟨hn, by simpa using hclosed⟩)
  · intro m n hm hn hkey
    have hm' := howned.timer?_of_live hm
    rw [hkey, howned.timer?_of_live hn, Option.some.injEq] at hm'
    exact hm'.symm
  · intro key e n hdrifts hkey
    obtain ⟨hreplaced, hunused⟩ := howned.replace key
    exact hreplaced.not_live_of_unused hunused hdrifts hkey
  · intro key e n hdrifts hkey
    obtain ⟨hremoved, hunused⟩ := howned.remove key
    exact hremoved.not_live_of_unused hunused hdrifts hkey
  · intro e n hdrifts
    exact howned.drop hdrifts n

/-- A registry without jobs that drives its timers. -/
def untouched : Registry :=
  (Builder.new (.atRest .epoch)).build true

/-- The schedule of a job that runs every second. -/
def everySecond : Schedule :=
  .every ⟨Span.second, by decide, by decide⟩

/-- The registry after a job that runs every second has been added. -/
def cleaning : Registry :=
  (Operation.add "cleanup" .null (Script.ofList []) everySecond).perform untouched

theorem live_timers_owned_cleaning :
    untouched.entries = [] ∧
      untouched.executor.timers = [] ∧
      untouched.Reaches cleaning ∧
      cleaning.executor.Live 0 ∧
      cleaning.timer? (cleaning.executor.handleKey 0) = some 0 := by
  have hreaches : untouched.Reaches cleaning := untouched.reaches_perform _
  have hlive : cleaning.executor.Live 0 := by
    refine ⟨?_, ?_⟩
    · decide +kernel
    · decide +kernel
  have hentries : untouched.entries = [] := rfl
  obtain ⟨-, howned, -⟩ := live_timers_owned hentries rfl hreaches
  refine ⟨rfl, rfl, hreaches, hlive, ?_⟩
  rcases howned 0 hlive.1 with hclosed | htimer
  · rw [hlive.2] at hclosed
    simp at hclosed
  · exact htimer

end Registry
end Timetable
