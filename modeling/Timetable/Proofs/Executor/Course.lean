import Timetable.Proofs.Executor.Driving

/-!
# The course of a timer

Tasks share one thread.  A timer moves on until it waits, for the engine or for
the clock; only then is it somebody else's turn to start or stop the engine, and
the clock goes on only when the timer cannot move.  A course is whatever may happen
to a timer and around it in this way, in any order and as often as one likes, as
long as nobody closes it.  It is kept together with the deeds of the timer.

Main results:

* courses can be put together (Course.append);
* what each leg of a course preserves, all of the course preserves
  (Course.invariant);
* whatever tasks do in any order leads along a course (course_of_steps), and so do
  the engine and the clock (leg_startEngine, leg_stopEngine, leg_setClock);
* so does a list of cues (course_told).
-/

namespace Timetable

/-- Something that a timer does, or that happens to the engine meanwhile. -/
inductive Deed where
  /-- Held until the engine runs, it goes on from this instant. -/
  | resumed (instant : Instant)
  /-- It drops an activation at this instant, since the engine stands still. -/
  | dropped (instant : Instant)
  /-- It has an answer from its schedule. -/
  | answered (activation : Option Instant)
  /-- It starts the run of an activation. -/
  | dispatched (activation : Instant)
  /-- The engine is stopped. -/
  | stopped
  deriving DecidableEq, Repr

/-- The activations that are dispatched among deeds. -/
def dispatches (l : List Deed) : List Instant :=
  l.filterMap fun
    | .dispatched i => some i
    | _ => none

theorem mem_dispatches_iff
    {l : List Deed}
    {i : Instant} :
    i ∈ dispatches l ↔ .dispatched i ∈ l := by
  rw [dispatches, List.mem_filterMap]
  constructor
  · rintro ⟨deed, hdeed, hi⟩
    cases deed <;> cases hi
    exact hdeed
  · exact fun h => ⟨_, h, rfl⟩

theorem dispatches_append (l l' : List Deed) :
    dispatches (l ++ l') = dispatches l ++ dispatches l' :=
  List.filterMap_append

/-- A timer that stands so lets others move: it waits, or it is over. -/
def Phase.yields : Phase → Bool
  | .resting => false
  | .waiting false => false
  | .asking => false
  | .woken _ => false
  | .counted _ => false
  | _ => true

namespace Executor

/-- What the next move of a timer does. -/
def deeds
    (e : Executor)
    (t : Timer) :
    List Deed :=
  match t.phase with
  | .waiting true => [.resumed e.wallNow]
  | .asking =>
      match (t.schedule.next t.previous).answer with
      | .ok answer => [.answered answer]
      | .error _ => []
  | .woken _ => if e.running then [] else [.dropped e.wallNow]
  | .counted i => [.dispatched i]
  | _ => []

/-- Whether the engine has been stopped between two states. -/
def stops (e e' : Executor) : List Deed :=
  if e.running && !e'.running then [.stopped] else []

/-- A timer lets others move. -/
def yields (e : Executor) (n : Nat) : Bool :=
  (e.timers[n]?).all fun t => t.phase.yields

/-- Something happens beside a timer, to whatever does not concern it; time passes only while
the timer cannot move, and the engine is started and stopped only while it lets others move. -/
structure Aside
    (e e' : Executor)
    (n : Nat) :
    Prop where
  timer : e'.timers[n]? = e.timers[n]?
  wall : e'.wall = e.wall
  clock : e'.now = e.now ∨ e.now ≤ e'.now ∧ e.timerMoves n = []
  engine : e'.running = e.running ∨ e.yields n = true

/-- One leg of a course, with the deeds on it: the timer moves, or something happens beside
it. -/
inductive Leg
    (n : Nat)
    (e : Executor) :
    List Deed → Executor → Prop
  | drive
      {e' : Executor}
      {t : Timer}
      (entry : e.timers[n]? = some t)
      (unclosed : e.isCancelled t.token = false)
      (move : e' ∈ e.timerMoves n) :
      Leg n e (e.deeds t) e'
  | aside
      {e' : Executor}
      (h : e.Aside e' n) :
      Leg n e (e.stops e') e'

/-- The course of a timer from one state to another, with the deeds on it. -/
inductive Course
    (n : Nat)
    (e₀ : Executor) :
    List Deed → Executor → Prop
  | start : Course n e₀ [] e₀
  | leg
      {l l' : List Deed}
      {e e' : Executor}
      (h : Course n e₀ l e)
      (last : e.Leg n l' e') :
      Course n e₀ (l ++ l') e'

/-- Courses can be put together. -/
theorem Course.append
    {n : Nat}
    {a b c : Executor}
    {l l' : List Deed}
    (hab : a.Course n l b)
    (hbc : b.Course n l' c) :
    a.Course n (l ++ l') c := by
  induction hbc with
  | start =>
      rw [List.append_nil]
      exact hab
  | leg _ last ih =>
      rw [← List.append_assoc]
      exact ih.leg last

/-- The entry of a timer after one of its moves. -/
theorem Driven.entry
    {e e' : Executor}
    {n : Nat}
    {t t' : Timer}
    (ht : e.timers[n]? = some t)
    (h : e.Driven e' n t t') :
    e'.timers[n]? = some t' := by
  rw [h.timers]
  exact List.getElem?_set_self (List.getElem?_eq_some_iff.1 ht).1

/-- **What each leg of a course preserves, all of the course preserves.** -/
theorem Course.invariant
    {P : List Deed → Executor → Timer → Prop}
    {n : Nat}
    {e₀ d : Executor}
    {t₀ : Timer}
    {l : List Deed}
    (h : e₀.Course n l d)
    (entry : e₀.timers[n]? = some t₀)
    (start : P [] e₀ t₀)
    (drive : ∀ {l e e' t t'}, P l e t → e.timers[n]? = some t →
      e.isCancelled t.token = false → e.Driven e' n t t' → P (l ++ e.deeds t) e' t')
    (aside : ∀ {l e e' t}, P l e t → e.timers[n]? = some t →
      e.Aside e' n → P (l ++ e.stops e') e' t) :
    ∃ t, d.timers[n]? = some t ∧ P l d t := by
  induction h with
  | start => exact ⟨t₀, entry, start⟩
  | leg _ last ih =>
      obtain ⟨t, ht, hP⟩ := ih
      cases last with
      | drive entry' unclosed move =>
          obtain rfl := Option.some.inj (ht.symm.trans entry')
          obtain ⟨t', hdriven⟩ := driven_of_entry ht move
          exact ⟨t', hdriven.entry ht, drive hP ht unclosed hdriven⟩
      | aside haside => exact ⟨t, haside.timer.trans ht, aside hP ht haside⟩

/-- The wall is the same one along a course. -/
theorem Course.wall
    {n : Nat}
    {e₀ d : Executor}
    {l : List Deed}
    (h : e₀.Course n l d) :
    d.wall = e₀.wall := by
  induction h with
  | start => rfl
  | leg _ last ih =>
      cases last with
      | drive _ _ move =>
          obtain ⟨t, t', -, hdriven⟩ := driven_of_mem_timerMoves move
          exact hdriven.timeless.wall.trans ih
      | aside haside => exact haside.wall.trans ih

section Others

variable {n : Nat} {e : Executor}

theorem stops_of_running_eq
    {e' : Executor}
    (h : e'.running = e.running) :
    e.stops e' = [] := by
  rw [stops, h]
  cases e.running <;> rfl

theorem aside_of_mem_moves
    {e' : Executor}
    {m : Mover}
    (other : m ≠ .timer n)
    (h : e' ∈ e.moves m) :
    e.Aside e' n ∧ e'.running = e.running := by
  have htimeless := timeless_of_mem_moves h
  suffices hkeeps : e'.timers[n]? = e.timers[n]? ∧ e'.running = e.running from
    ⟨⟨hkeeps.1, htimeless.wall, Or.inl htimeless.now, Or.inl hkeeps.2⟩, hkeeps.2⟩
  cases m with
  | run r =>
      obtain ⟨run, run', -, hstep⟩ := runStep_of_mem_runMoves h
      exact ⟨by rw [hstep.timers], hstep.running⟩
  | timer k =>
      obtain ⟨t, t', -, hdriven⟩ := driven_of_mem_timerMoves h
      have hk : k ≠ n := fun hkn => other (hkn ▸ rfl)
      rw [hdriven.timers, List.getElem?_set_ne hk]
      exact ⟨rfl, hdriven.running⟩
  | waiter k =>
      obtain ⟨w, w', -, -, hstep⟩ := waiterStep_of_mem_waiterMoves h
      cases hstep with
      | pass _ _ hquiet => exact ⟨by rw [hquiet.timers], hquiet.running⟩
      | finish hquiet => exact ⟨by rw [hquiet.timers], hquiet.running⟩

/-- A move of somebody else. -/
theorem leg_of_mem_moves
    {e' : Executor}
    {m : Mover}
    (other : m ≠ .timer n)
    (h : e' ∈ e.moves m) :
    e.Leg n [] e' := by
  obtain ⟨haside, hrunning⟩ := aside_of_mem_moves other h
  exact stops_of_running_eq hrunning ▸ .aside haside

/-- Whatever tasks do in any order leads along the course of a timer that nobody has closed. -/
theorem course_of_steps
    {t : Timer}
    {e' : Executor}
    (ht : e.timers[n]? = some t)
    (unclosed : e.isCancelled t.token = false)
    (h : Relation.ReflTransGen Step e e') :
    ∃ l, e.Course n l e' := by
  suffices hcourse : ∃ l t', e.Course n l e' ∧ e'.timers[n]? = some t' ∧
      e'.isCancelled t'.token = false by
    obtain ⟨l, -, hcourse, -⟩ := hcourse
    exact ⟨l, hcourse⟩
  induction h with
  | refl => exact ⟨[], t, .start, ht, unclosed⟩
  | tail _ hstep ih =>
      obtain ⟨l, t₁, hcourse, ht₁, hunclosed⟩ := ih
      obtain ⟨m, hmove⟩ := hstep
      have htimeless := timeless_of_mem_moves hmove
      by_cases hm : m = .timer n
      · subst hm
        obtain ⟨t₂, hdriven⟩ := driven_of_entry ht₁ hmove
        refine ⟨_, t₂, hcourse.leg (.drive ht₁ hunclosed hmove), hdriven.entry ht₁, ?_⟩
        rw [htimeless.isCancelled, hdriven.drive.token]
        exact hunclosed
      · refine ⟨_, t₁, hcourse.leg (leg_of_mem_moves hm hmove), ?_, ?_⟩
        · exact (aside_of_mem_moves hm hmove).1.timer.trans ht₁
        · rw [htimeless.isCancelled]
          exact hunclosed

theorem leg_startEngine
    (yields : e.yields n = true) :
    e.Leg n [] e.startEngine := by
  have hstops : e.stops e.startEngine = [] := by simp [stops, startEngine]
  exact hstops ▸ .aside ⟨rfl, rfl, Or.inl rfl, Or.inr yields⟩

theorem leg_stopEngine
    (yields : e.yields n = true) :
    e.Leg n (e.stops e.stopEngine) e.stopEngine :=
  .aside ⟨rfl, rfl, Or.inl rfl, Or.inr yields⟩

/-- The clock goes on while the timer cannot move. -/
theorem leg_setClock
    {now : Nat}
    (later : e.now ≤ now)
    (still : e.timerMoves n = []) :
    e.Leg n [] (e.setClock now) := by
  have hstops : e.stops (e.setClock now) = [] := stops_of_running_eq rfl
  exact hstops ▸ .aside ⟨rfl, rfl, Or.inr ⟨later, still⟩, Or.inl rfl⟩

end Others

section Cues

/-- What happens next on a course that is told leg by leg. -/
inductive Cue where
  | move
  | wait (now : Nat)
  | start
  | stop
  deriving DecidableEq, Repr

/-- Follow one cue, if it can be followed. -/
def follow
    (n : Nat)
    (e : Executor) :
    Cue → Option (List Deed × Executor)
  | .move =>
      match e.timers[n]?, e.timerMoves n with
      | some t, e' :: _ => if e.isCancelled t.token then none else some (e.deeds t, e')
      | _, _ => none
  | .wait now =>
      if e.now ≤ now ∧ (e.timerMoves n).isEmpty then some ([], e.setClock now) else none
  | .start => if e.yields n then some ([], e.startEngine) else none
  | .stop => if e.yields n then some (e.stops e.stopEngine, e.stopEngine) else none

/-- Follow cues one after the other; the answer has the deeds on the way. -/
def followAll (n : Nat) : List Cue → Executor → Option (List Deed × Executor)
  | [], e => some ([], e)
  | cue :: cues, e =>
      match e.follow n cue with
      | none => none
      | some (l, e') => (followAll n cues e').map fun (l', d) => (l ++ l', d)

theorem leg_of_follow
    {n : Nat}
    {e e' : Executor}
    {cue : Cue}
    {l : List Deed}
    (h : e.follow n cue = some (l, e')) :
    e.Leg n l e' := by
  unfold follow at h
  cases cue with
  | move =>
      dsimp only at h
      split at h
      · rename_i t e₁ es ht hmoves
        split at h
        · cases h
        · rename_i hopen
          cases h
          refine .drive ht (by simpa using hopen) ?_
          rw [hmoves]
          exact List.mem_cons_self
      · cases h
  | wait now =>
      rw [Option.ite_none_right_eq_some] at h
      obtain ⟨⟨hlater, hstill⟩, h⟩ := h
      cases h
      exact leg_setClock hlater (List.isEmpty_iff.1 hstill)
  | start =>
      rw [Option.ite_none_right_eq_some] at h
      obtain ⟨hyields, h⟩ := h
      cases h
      exact leg_startEngine hyields
  | stop =>
      rw [Option.ite_none_right_eq_some] at h
      obtain ⟨hyields, h⟩ := h
      cases h
      exact leg_stopEngine hyields

/-- Following cues leads along a course. -/
theorem course_of_followAll
    {n : Nat}
    {e d : Executor}
    {cues : List Cue}
    {l : List Deed}
    (h : followAll n cues e = some (l, d)) :
    e.Course n l d := by
  induction cues generalizing e l with
  | nil =>
      cases h
      exact .start
  | cons cue cues ih =>
      unfold followAll at h
      split at h
      · cases h
      · rename_i l₁ e' hfollow
        obtain ⟨⟨l₂, d'⟩, hrest, hEq⟩ := Option.map_eq_some_iff.1 h
        cases hEq
        have hfirst : e.Course n ([] ++ l₁) e' := .leg .start (leg_of_follow hfollow)
        exact hfirst.append (ih hrest)

/-- The deeds and the state to which cues lead; nothing happens if they cannot be followed. -/
def told
    (n : Nat)
    (cues : List Cue)
    (e : Executor) :
    List Deed × Executor :=
  (followAll n cues e).getD ([], e)

theorem course_told
    (n : Nat)
    (cues : List Cue)
    (e : Executor) :
    e.Course n (told n cues e).1 (told n cues e).2 := by
  unfold told
  cases h : followAll n cues e with
  | none => exact .start
  | some result => exact course_of_followAll h

end Cues

end Executor
end Timetable
