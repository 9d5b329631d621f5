import Timetable.Proofs.Executor.Ledger

/-!
# Who has waited

Somebody who waits has a list of trackers and goes past them one after the
other, each at a moment at which it counts nothing.  Whoever has come to the end
of the list has thus seen such a moment for each tracker, in their order.

Main results:

* somebody who waits stays where they are, or goes past a tracker that counts
  nothing (waiter_of_act);
* between two states of which the later one has fewer trackers to wait for lies
  a moment at which the first tracker counts nothing (exists_idle_of_passed).
-/

namespace Timetable

/-- The waiting is over, and none of the trackers is left. -/
def Waiter.Returned (w : Waiter) : Prop :=
  w.trackers = [] ∧ w.finished.isSome = true

/-- Nobody has given up. -/
def Waiter.Honest (w : Waiter) : Prop :=
  w.finished.isSome = true → w.trackers = []

namespace Executor

/-- Somebody who waits stays where they are, or goes past a tracker that counts nothing. -/
def Goes
    (e : Executor)
    (w w' : Waiter) : Prop :=
  w'.trackers = w.trackers ∨ ∃ t, w.trackers = t :: w'.trackers ∧ e.inFlight t = 0

theorem waiter_of_waiterStep
    {e e' : Executor}
    {m n : Nat}
    {v v' w : Waiter}
    (hv : e.waiters[m]? = some v)
    (h : e.WaiterStep e' m v v')
    (hw : e.waiters[n]? = some w) :
    ∃ w', e'.waiters[n]? = some w' ∧ e.Goes w w' ∧ (w.Honest → w'.Honest) := by
  have hwaiters : e'.waiters = e.waiters.set m v' := by
    cases h with
    | pass _ _ hquiet => exact hquiet.waiters
    | finish hquiet => exact hquiet.waiters
  have hm : m < e.waiters.length := (List.getElem?_eq_some_iff.1 hv).1
  rw [hwaiters]
  by_cases hmn : m = n
  · subst hmn
    rw [hv] at hw
    cases hw
    refine ⟨v', List.getElem?_set_self hm, ?_⟩
    cases h with
    | pass t ts _ trackers trackers' idle finished' =>
        refine ⟨Or.inr ⟨t, by rw [trackers, trackers'], idle⟩, ?_⟩
        intro _ hfinished
        rw [finished'] at hfinished
        simp at hfinished
    | finish _ trackers trackers' =>
        exact ⟨Or.inl (trackers'.trans trackers.symm), fun _ _ => trackers'⟩
  · exact ⟨w, by rw [List.getElem?_set_ne hmn, hw], Or.inl rfl, id⟩

theorem waiter_of_drift
    {e e' : Executor}
    {n : Nat}
    {w : Waiter}
    (h : e.Drift e')
    (hw : e.waiters[n]? = some w) :
    ∃ w', e'.waiters[n]? = some w' ∧ e.Goes w w' ∧ (w.Honest → w'.Honest) := by
  have hsame : e'.waiters = e.waiters →
      ∃ w', e'.waiters[n]? = some w' ∧ e.Goes w w' ∧ (w.Honest → w'.Honest) :=
    fun h => ⟨w, by rw [h, hw], Or.inl rfl, id⟩
  cases h with
  | move m h =>
      cases m with
      | run r =>
          obtain ⟨run, run', -, hstep⟩ := runStep_of_mem_runMoves h
          exact hsame hstep.waiters
      | timer m =>
          obtain ⟨t, t', -, -, hstep⟩ := timerStep_of_mem_timerMoves h
          refine hsame ?_
          cases hstep with
          | quiet hquiet => exact hquiet.waiters
          | count _ hEq =>
              obtain ⟨journal, henter⟩ := e.enter_eq e.dispatched
              rw [hEq, henter]
              rfl
          | activate metric ctx hEq =>
              rw [hEq]
              rfl
      | waiter m =>
          obtain ⟨v, v', hv, -, hstep⟩ := waiterStep_of_mem_waiterMoves h
          exact waiter_of_waiterStep hv hstep hw
  | exhaust | clock | line | note | launch => exact hsame rfl
  | wait =>
      have hn : n < e.waiters.length := (List.getElem?_eq_some_iff.1 hw).1
      exact ⟨w, by rw [List.getElem?_append_left hn, hw], Or.inl rfl, id⟩

theorem waiter_of_giveUp
    (e : Executor)
    (m : Nat)
    {n : Nat}
    {w : Waiter}
    (hw : e.waiters[n]? = some w) :
    ∃ w', (e.giveUp m).waiters[n]? = some w' ∧ e.Goes w w' := by
  refine ⟨if m = n then { w with finished := w.finished.or (some e.now) } else w, ?_, ?_⟩
  · show (e.waiters.modify m _)[n]? = _
    rw [List.getElem?_modify, hw]
    rfl
  · split <;> exact Or.inl rfl

/-- Somebody who waits goes past no tracker that counts something, whatever happens. -/
theorem waiter_of_act
    {c : Chain}
    {e e' : Executor}
    {n : Nat}
    {w : Waiter}
    (h : Act c e e')
    (hw : e.waiters[n]? = some w) :
    ∃ w', e'.waiters[n]? = some w' ∧ e.Goes w w' := by
  have hsame : e'.waiters = e.waiters → ∃ w', e'.waiters[n]? = some w' ∧ e.Goes w w' :=
    fun h => ⟨w, by rw [h, hw], Or.inl rfl⟩
  cases h with
  | startEngine => exact hsame rfl
  | change h =>
      cases h with
      | drift h =>
          obtain ⟨w', hw', hgoes, -⟩ := waiter_of_drift h hw
          exact ⟨w', hw', hgoes⟩
      | giveUp m => exact e.waiter_of_giveUp m hw
      | close m =>
          refine hsame ?_
          unfold Executor.close
          split <;> rfl
      | rearm s => exact hsame (e.quiet_rearm s).waiters
      | trigger | stopEngine | addJob | arm => exact hsame rfl

/-- Who does not give up has no tracker left in the end. -/
theorem honest_of_drifts
    {e e' : Executor}
    {n : Nat}
    {w : Waiter}
    (h : e.Drifts e')
    (hw : e.waiters[n]? = some w)
    (honest : w.Honest) :
    ∃ w', e'.waiters[n]? = some w' ∧ w'.Honest := by
  induction h with
  | refl => exact ⟨w, hw, honest⟩
  | tail _ h ih =>
      obtain ⟨v, hv, hhonest⟩ := ih
      obtain ⟨v', hv', -, hstep⟩ := waiter_of_drift h hv
      exact ⟨v', hv', hstep hhonest⟩

/-- **Nobody goes past a tracker but at a moment at which it counts nothing.** -/
theorem exists_idle_of_passed
    {c : Chain}
    {a r : Executor}
    {n : Nat}
    {w v : Waiter}
    {t : TrackerId}
    {ts : List TrackerId}
    (acts : Acts c a r)
    (hw : a.waiters[n]? = some w)
    (htrackers : w.trackers = t :: ts)
    (hv : r.waiters[n]? = some v)
    (hpassed : v.trackers.length ≤ ts.length) :
    ∃ d d' w', Acts c a d ∧ d.inFlight t = 0 ∧ Act c d d' ∧ Acts c d' r ∧
      d'.waiters[n]? = some w' ∧ w'.trackers = ts := by
  induction acts using Relation.ReflTransGen.head_induction_on generalizing w with
  | refl =>
      rw [hw] at hv
      cases hv
      rw [htrackers, List.length_cons] at hpassed
      omega
  | @head a b act acts ih =>
      obtain ⟨w', hw', hgoes⟩ := waiter_of_act act hw
      rcases hgoes with hsame | ⟨t', hpass, hidle⟩
      · obtain ⟨d, d', u, hbd, hrest⟩ := ih hw' (hsame.trans htrackers)
        exact ⟨d, d', u, .head act hbd, hrest⟩
      · rw [htrackers, List.cons.injEq] at hpass
        obtain ⟨rfl, rfl⟩ := hpass
        exact ⟨a, b, w', .refl, hidle, act, acts, hw', rfl⟩

end Executor
end Timetable
