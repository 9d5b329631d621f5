import Timetable.Proofs.Executor.Dropping

/-!
# Paths

A path leads from one state of the executor to another, and keeps each step with the state
before it and the state after it.  What has happened on the way, to whomever one looks at,
can be read off the steps.

Main results:

* paths can be put together, and taken apart at every step (Path.append, Path.split,
  Path.of_mem);
* incidents that are told one after the other lead along a path (path_undergone).
-/

namespace Timetable
namespace Executor

/-- A path by steps of some kind, each of which is kept with what was before and after it. -/
inductive Path
    (step : Executor → Executor → Prop)
    (e₀ : Executor) :
    List (Executor × Executor) → Executor → Prop
  | start : Path step e₀ [] e₀
  | next
      {l : List (Executor × Executor)}
      {e e' : Executor}
      (h : Path step e₀ l e)
      (last : step e e') :
      Path step e₀ (l ++ [(e, e')]) e'

namespace Path

variable {step step' : Executor → Executor → Prop} {e₀ e e' : Executor}
  {l l' : List (Executor × Executor)}

theorem append
    (h : Path step e₀ l e)
    (h' : Path step e l' e') :
    Path step e₀ (l ++ l') e' := by
  induction h' with
  | start => rwa [List.append_nil]
  | next _ last ih =>
      rw [← List.append_assoc]
      exact .next ih last

theorem single (h : step e e') : Path step e [(e, e')] e' :=
  .next .start h

/-- A path leads nowhere else, or to where its steps lead. -/
theorem reached (h : Path step e₀ l e) : e = e₀ ∨ ∃ s ∈ l, s.2 = e := by
  cases h with
  | start => exact Or.inl rfl
  | next => exact Or.inr ⟨_, List.mem_concat_self, rfl⟩

/-- The last step of a path. -/
theorem last_step
    {s : Executor × Executor}
    (h : Path step e₀ (l ++ [s]) e) :
    Path step e₀ l s.1 ∧ step s.1 s.2 ∧ e = s.2 := by
  generalize hl : l ++ [s] = whole at h
  cases h with
  | start => simp at hl
  | next h last =>
      obtain ⟨rfl, hs⟩ := List.append_inj' hl rfl
      obtain rfl := List.singleton_inj.1 hs
      exact ⟨h, last, rfl⟩

theorem split
    (h : Path step e₀ (l ++ l') e) :
    ∃ d, Path step e₀ l d ∧ Path step d l' e := by
  induction l' using List.reverseRecOn generalizing e with
  | nil => exact ⟨e, by rwa [List.append_nil] at h, .start⟩
  | append_singleton l' s ih =>
      rw [← List.append_assoc] at h
      obtain ⟨hpath, hstep, rfl⟩ := h.last_step
      obtain ⟨d, hd, hd'⟩ := ih hpath
      exact ⟨d, hd, .next hd' hstep⟩

/-- Each step of a path is one of its kind, with a way to it and a way from it. -/
theorem of_mem
    (h : Path step e₀ l e)
    {s : Executor × Executor}
    (hs : s ∈ l) :
    ∃ before after, l = before ++ [s] ++ after ∧
      Path step e₀ before s.1 ∧ step s.1 s.2 ∧ Path step s.2 after e := by
  obtain ⟨before, after, rfl⟩ := List.append_of_mem hs
  rw [List.append_cons] at h
  obtain ⟨d, hto, hfrom⟩ := h.split
  obtain ⟨hbefore, hstep, rfl⟩ := hto.last_step
  exact ⟨before, after, List.append_cons _ _ _, hbefore, hstep, hfrom⟩

/-- Steps of one kind are steps of another. -/
theorem imp
    (h : Path step e₀ l e)
    (same : ∀ s ∈ l, step s.1 s.2 → step' s.1 s.2) :
    Path step' e₀ l e := by
  induction h with
  | start => exact .start
  | next _ last ih =>
      refine .next (ih fun s hs => same s (List.mem_append_left _ hs)) ?_
      exact same _ List.mem_concat_self last

end Path

/-- Something that can be told of the executor. -/
inductive Incident where
  /-- A mover makes one of its moves. -/
  | move (m : Mover) (choice : Nat)
  | clock (now : Nat)
  | engine (running : Bool)
  | launch (j : JobId)
  | cancel (t : TokenId)
  | drop (r : RunId)
  deriving DecidableEq, Repr

/-- The executor after an incident, if that can be. -/
def undergo
    (e : Executor) :
    Incident → Option Executor
  | .move m choice => (e.moves m)[choice]?
  | .clock now => some (e.setClock now)
  | .engine running => some (if running then e.startEngine else e.stopEngine)
  | .launch j => some (e.spawn j (e.jobContext j) none)
  | .cancel t => some (e.cancel t)
  | .drop r =>
      if ((e.runs[r]?).bind fun run => e.jobs[run.job]?).isSome then some (e.dropRun r) else none

/-- The steps on which incidents lead one after the other, up to one that cannot be. -/
def undergone : List Incident → Executor → List (Executor × Executor)
  | [], _ => []
  | i :: is, e =>
      match e.undergo i with
      | none => []
      | some e' => (e, e') :: undergone is e'

/-- The state to which steps lead. -/
def terminus
    (e₀ : Executor)
    (l : List (Executor × Executor)) :
    Executor :=
  (l.getLast?).elim e₀ Prod.snd

/-- An incident other than a drop is something that befalls the executor. -/
theorem befalls_of_undergo
    {e e' : Executor}
    {i : Incident}
    (noDrop : ∀ r, i ≠ .drop r)
    (h : e.undergo i = some e') :
    e.Befalls e' := by
  cases i with
  | move m choice => exact .act (c := []) (.change (.drift (.move m (List.mem_of_getElem? h))))
  | clock now =>
      cases h
      exact .act (c := []) (.change (.drift (.clock now)))
  | engine running =>
      cases h
      cases running with
      | true => exact .act (c := []) .startEngine
      | false => exact .act (c := []) (.change .stopEngine)
  | launch j =>
      cases h
      exact .act (c := []) (.change (.drift (.launch j _)))
  | cancel t =>
      cases h
      exact .cancel t
  | drop r => exact absurd rfl (noDrop r)

theorem occurs_of_undergo
    {e e' : Executor}
    {i : Incident}
    (h : e.undergo i = some e') :
    e.Occurs e' := by
  cases i with
  | move | clock | engine | launch | cancel => exact .befalls (befalls_of_undergo (by simp) h)
  | drop r =>
      unfold undergo at h
      rw [Option.ite_none_right_eq_some] at h
      obtain ⟨hsome, h⟩ := h
      cases h
      obtain ⟨job, hjob⟩ := Option.isSome_iff_exists.1 hsome
      obtain ⟨run, entry, decorated⟩ := Option.bind_eq_some_iff.1 hjob
      exact .drop entry decorated

/-- **Incidents that are told one after the other lead along a path.** -/
theorem path_undergone
    {step : Executor → Executor → Prop}
    (is : List Incident)
    (e : Executor)
    (steps : ∀ i ∈ is, ∀ d d', d.undergo i = some d' → step d d') :
    Path step e (undergone is e) (terminus e (undergone is e)) := by
  induction is generalizing e with
  | nil => exact .start
  | cons i is ih =>
      unfold undergone
      split
      · exact .start
      · rename_i e' h
        have hfirst := Path.single (steps i List.mem_cons_self e e' h)
        have hrest := ih e' fun i hi => steps i (List.mem_cons_of_mem _ hi)
        have hend : terminus e ((e, e') :: undergone is e') = terminus e' (undergone is e') := by
          unfold terminus
          rw [List.getLast?_cons]
          cases (undergone is e').getLast? <;> rfl
        rw [hend]
        exact hfirst.append hrest

end Executor
end Timetable
