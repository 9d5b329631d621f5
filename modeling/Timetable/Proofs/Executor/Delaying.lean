import Timetable.Proofs.Executor.Barrier
import Timetable.Proofs.Executor.Passages

/-!
# One run after the other

A layer that holds runs back serves them one after the other.  A run goes in at once if nobody is
inside and nobody waits.  Otherwise it has found the lock taken, and goes to join the end of the
line; when whoever is inside has left, by an outcome or by unwinding, the first in the line goes
in, and nobody else can.

Finding the lock taken and joining the line are two moves, and others may move in between.  So a
run can be overtaken on its way to the line, but nowhere else.

Main results:

* a line follows the passages at such a layer (follows_pass);
* those who have gone in and those who wait are, in this order, those who have come to the lock,
  but for those who were dropped while they waited (Line.arrivals_of_replay);
* and these are those who have arrived, but for those who are still on their way
  (Line.callers_of_replay), in the same order if everybody comes to the lock before the next one
  arrives (Line.callers_of_prompt);
* nobody who waits is overtaken, nobody is lost, and nobody runs beside another
  (served_in_order);
* a run on its way to the line can be overtaken (overtaken_before_queue).
-/

namespace Timetable

/-- The run inside a layer, those that wait to go in, and those that have found somebody there
and have yet to join them. -/
structure Line where
  inside : Option RunId := none
  waiting : List RunId := []
  coming : List RunId := []
  deriving DecidableEq, Repr

namespace Line

/-- Everybody at the layer, in order. -/
def everyone (line : Line) : List RunId :=
  line.inside.toList ++ line.waiting

/-- The line after one more passage, if that can be. -/
def pass
    (line : Line) :
    RunId × Passage → Option Line
  | (r, .enters) =>
      if line.everyone = [] then some { line with inside := some r, waiting := [] } else none
  | (r, .misses) =>
      if line.everyone = [] ∨ r ∈ line.coming then none
      else some { line with coming := line.coming ++ [r] }
  | (r, .queues) =>
      if line.everyone = [] ∨ r ∈ line.everyone ∨ r ∉ line.coming then none
      else some
        { line with waiting := line.waiting ++ [r], coming := line.coming.erase r }
  | (r, .takes) =>
      if line.everyone = [] ∧ r ∈ line.coming then
        some { inside := some r, waiting := [], coming := line.coming.erase r }
      else none
  | (r, .turnsBack) =>
      if r ∈ line.coming then some { line with coming := line.coming.erase r } else none
  | (r, .letIn) =>
      if line.inside = none ∧ line.waiting.head? = some r then
        some { line with inside := some r, waiting := line.waiting.tail }
      else none
  | (r, .leaves) => if line.inside = some r then some { line with inside := none } else none
  | (r, .givesUp) =>
      if r ∈ line.waiting then some { line with waiting := line.waiting.erase r } else none
  | (_, .refused) => none

end Line

/-- Those who arrive at the layer, in order. -/
def callers (h : List (RunId × Passage)) : List RunId :=
  h.filterMap fun
    | (r, .enters) => some r
    | (r, .misses) => some r
    | _ => none

/-- Those who come to the lock, which they get or for which they wait from now on, in order. -/
def arrivals (h : List (RunId × Passage)) : List RunId :=
  h.filterMap fun
    | (r, .enters) => some r
    | (r, .queues) => some r
    | (r, .takes) => some r
    | _ => none

/-- Those who go in, in order. -/
def entrances (h : List (RunId × Passage)) : List RunId :=
  h.filterMap fun
    | (r, .enters) => some r
    | (r, .takes) => some r
    | (r, .letIn) => some r
    | _ => none

/-- Those who are dropped before they have gone in, in order. -/
def dropouts (h : List (RunId × Passage)) : List RunId :=
  h.filterMap fun
    | (r, .turnsBack) => some r
    | (r, .givesUp) => some r
    | _ => none

section Append

variable (h h' : List (RunId × Passage))

theorem callers_append : callers (h ++ h') = callers h ++ callers h' :=
  List.filterMap_append

theorem arrivals_append : arrivals (h ++ h') = arrivals h ++ arrivals h' :=
  List.filterMap_append

theorem entrances_append : entrances (h ++ h') = entrances h ++ entrances h' :=
  List.filterMap_append

theorem dropouts_append_eq_nil_iff :
    dropouts (h ++ h') = [] ↔ dropouts h = [] ∧ dropouts h' = [] := by
  rw [dropouts, List.filterMap_append]
  exact List.append_eq_nil_iff

end Append

/-- Whenever somebody arrives, all who have arrived before have come to the lock. -/
def Prompt (h : List (RunId × Passage)) : Prop :=
  ∀ before after r p, h = before ++ (r, p) :: after → p = .enters ∨ p = .misses →
    (callers before).Perm (arrivals before)

theorem Prompt.before
    {h : List (RunId × Passage)}
    {s : RunId × Passage}
    (prompt : Prompt (h ++ [s])) :
    Prompt h :=
  fun before after r p hh hp =>
    prompt before (after ++ [s]) r p (by rw [hh, List.append_assoc, List.cons_append]) hp

namespace Line

variable {h : List (RunId × Passage)} {s : RunId × Passage} {line line' : Line}

/-- What a line starts with and every passage preserves holds of all that has been replayed. -/
theorem replay_induction
    {motive : List (RunId × Passage) → Line → Prop}
    (start : motive [] {})
    (next : ∀ {h line s line'}, motive h line → line.pass s = some line' → motive (h ++ [s]) line')
    (replay : h.foldlM pass {} = some line) :
    motive h line := by
  induction h using List.reverseRecOn generalizing line with
  | nil =>
      cases replay
      exact start
  | append_singleton h s ih =>
      rw [List.foldlM_append] at replay
      obtain ⟨before, hbefore, hpass⟩ := Option.bind_eq_some_iff.1 replay
      exact next (ih hbefore) (by simpa [List.foldlM] using hpass)

theorem waiting_eq_nil (nobody : line.everyone = []) : line.waiting = [] :=
  (List.append_eq_nil_iff.1 nobody).2

/-- **A passage keeps the order**: whoever goes in has been the first of those who wait, or finds
nobody there, and whoever comes to wait is the last of them. -/
theorem waiting_of_pass
    (pass : line.pass s = some line') :
    (entrances [s] ++ line'.waiting).Sublist (line.waiting ++ arrivals [s]) ∧
      (dropouts [s] = [] → entrances [s] ++ line'.waiting = line.waiting ++ arrivals [s]) := by
  have hsame : entrances [s] ++ line'.waiting = line.waiting ++ arrivals [s] →
      (entrances [s] ++ line'.waiting).Sublist (line.waiting ++ arrivals [s]) ∧
        (dropouts [s] = [] → entrances [s] ++ line'.waiting = line.waiting ++ arrivals [s]) :=
    fun h => ⟨h ▸ List.Sublist.refl _, fun _ => h⟩
  obtain ⟨r, p⟩ := s
  cases p with
  | enters =>
      obtain ⟨hnobody, hline⟩ := Option.ite_none_right_eq_some.1 pass
      cases hline
      exact hsame (by rw [waiting_eq_nil hnobody]; rfl)
  | takes =>
      obtain ⟨⟨hnobody, -⟩, hline⟩ := Option.ite_none_right_eq_some.1 pass
      cases hline
      exact hsame (by rw [waiting_eq_nil hnobody]; rfl)
  | queues =>
      obtain ⟨-, hline⟩ := Option.ite_none_left_eq_some.1 pass
      cases hline
      exact hsame rfl
  | letIn =>
      obtain ⟨⟨-, hhead⟩, hline⟩ := Option.ite_none_right_eq_some.1 pass
      cases hline
      refine hsame ?_
      show r :: line.waiting.tail = line.waiting ++ []
      rw [List.append_nil, List.cons_head?_tail hhead]
  | misses =>
      obtain ⟨-, hline⟩ := Option.ite_none_left_eq_some.1 pass
      cases hline
      exact hsame (List.append_nil _).symm
  | leaves | turnsBack =>
      obtain ⟨-, hline⟩ := Option.ite_none_right_eq_some.1 pass
      cases hline
      exact hsame (List.append_nil _).symm
  | givesUp =>
      obtain ⟨-, hline⟩ := Option.ite_none_right_eq_some.1 pass
      cases hline
      refine ⟨?_, fun hnone => by simp [dropouts] at hnone⟩
      show (line.waiting.erase r).Sublist (line.waiting ++ [])
      rw [List.append_nil]
      exact List.erase_sublist
  | refused => cases pass

/-- **Whoever arrives comes to the lock, or is on the way to it**, and nobody else does; in this
order if at most one is on the way, and none when somebody arrives. -/
theorem coming_of_pass
    (pass : line.pass s = some line')
    (stays : dropouts [s] = []) :
    (line.coming ++ callers [s]).Perm (arrivals [s] ++ line'.coming) ∧
      (line.coming.length ≤ 1 → (callers [s] ≠ [] → line.coming = []) →
        line.coming ++ callers [s] = arrivals [s] ++ line'.coming ∧ line'.coming.length ≤ 1) := by
  have hjoined : ∀ {r : RunId}, r ∈ line.coming →
      line.coming.Perm (r :: line.coming.erase r) ∧
        (line.coming.length ≤ 1 → line.coming = r :: line.coming.erase r ∧
          (line.coming.erase r).length ≤ 1) := by
    intro r hmem
    refine ⟨List.perm_cons_erase hmem, fun hone => ?_⟩
    obtain ⟨k, hk⟩ := List.length_eq_one_iff.1 (hone.antisymm (List.length_pos_of_mem hmem))
    rw [hk, List.mem_singleton] at hmem
    simp [hk, hmem]
  obtain ⟨r, p⟩ := s
  cases p with
  | enters =>
      obtain ⟨-, hline⟩ := Option.ite_none_right_eq_some.1 pass
      cases hline
      refine ⟨List.perm_append_comm, fun _ hnone => ?_⟩
      simp [hnone (List.cons_ne_nil r []), callers, arrivals]
  | misses =>
      obtain ⟨-, hline⟩ := Option.ite_none_left_eq_some.1 pass
      cases hline
      refine ⟨.refl _, fun _ hnone => ⟨rfl, ?_⟩⟩
      simp [hnone (List.cons_ne_nil r [])]
  | queues =>
      obtain ⟨hcan, hline⟩ := Option.ite_none_left_eq_some.1 pass
      cases hline
      have hmem : r ∈ line.coming := not_not.1 fun hnot => hcan (Or.inr (Or.inr hnot))
      show (line.coming ++ []).Perm (r :: line.coming.erase r) ∧
        (_ → _ → line.coming ++ [] = r :: line.coming.erase r ∧ _)
      rw [List.append_nil]
      exact (hjoined hmem).imp_right fun h hone _ => h hone
  | takes =>
      obtain ⟨⟨-, hmem⟩, hline⟩ := Option.ite_none_right_eq_some.1 pass
      cases hline
      show (line.coming ++ []).Perm (r :: line.coming.erase r) ∧
        (_ → _ → line.coming ++ [] = r :: line.coming.erase r ∧ _)
      rw [List.append_nil]
      exact (hjoined hmem).imp_right fun h hone _ => h hone
  | letIn | leaves =>
      obtain ⟨-, hline⟩ := Option.ite_none_right_eq_some.1 pass
      cases hline
      show (line.coming ++ []).Perm line.coming ∧ (_ → _ → line.coming ++ [] = line.coming ∧ _)
      rw [List.append_nil]
      exact ⟨.refl _, fun hone _ => ⟨rfl, hone⟩⟩
  | turnsBack | givesUp => simp [dropouts] at stays
  | refused => cases pass

/-- **Those who have gone in and those who wait are those who have come to the lock, in this
order.** -/
theorem arrivals_of_replay
    (replay : h.foldlM pass {} = some line) :
    (entrances h ++ line.waiting).Sublist (arrivals h) ∧
      (dropouts h = [] → arrivals h = entrances h ++ line.waiting) := by
  refine replay_induction (motive := fun h line =>
    (entrances h ++ line.waiting).Sublist (arrivals h) ∧
      (dropouts h = [] → arrivals h = entrances h ++ line.waiting))
    ⟨.slnil, fun _ => rfl⟩ ?_ replay
  rintro h line s line' ⟨hsub, hall⟩ hpass
  obtain ⟨hnext, hsame⟩ := waiting_of_pass hpass
  rw [entrances_append, arrivals_append, dropouts_append_eq_nil_iff, List.append_assoc]
  refine ⟨?_, ?_⟩
  · refine ((List.Sublist.refl _).append hnext).trans ?_
    rw [← List.append_assoc]
    exact hsub.append (.refl _)
  · rintro ⟨hbefore, hnow⟩
    rw [hsame hnow, hall hbefore, List.append_assoc]

/-- **All who have arrived have come to the lock, or are on the way to it**, unless somebody has
been dropped. -/
theorem callers_of_replay
    (replay : h.foldlM pass {} = some line)
    (stay : dropouts h = []) :
    (callers h).Perm (arrivals h ++ line.coming) := by
  refine replay_induction (motive := fun h line =>
    dropouts h = [] → (callers h).Perm (arrivals h ++ line.coming)) (fun _ => .nil) ?_ replay stay
  intro h line s line' ih hpass hnone
  obtain ⟨hbefore, hnow⟩ := (dropouts_append_eq_nil_iff h [s]).1 hnone
  have hstep := (coming_of_pass hpass hnow).1
  rw [callers_append, arrivals_append]
  calc (callers h ++ callers [s]).Perm ((arrivals h ++ line.coming) ++ callers [s]) :=
        (ih hbefore).append_right _
    _ = arrivals h ++ (line.coming ++ callers [s]) := List.append_assoc ..
    List.Perm _ (arrivals h ++ (arrivals [s] ++ line'.coming)) := hstep.append_left _
    _ = (arrivals h ++ arrivals [s]) ++ line'.coming := (List.append_assoc ..).symm

/-- **Whoever is prompt is served in the order of arrival.** -/
theorem callers_of_prompt
    (replay : h.foldlM pass {} = some line)
    (stay : dropouts h = [])
    (prompt : Prompt h) :
    callers h = arrivals h ++ line.coming := by
  suffices hordered : dropouts h = [] → Prompt h →
      callers h = arrivals h ++ line.coming ∧ line.coming.length ≤ 1 from
    (hordered stay prompt).1
  refine replay_induction (motive := fun h line => dropouts h = [] → Prompt h →
    callers h = arrivals h ++ line.coming ∧ line.coming.length ≤ 1)
    (fun _ _ => ⟨rfl, Nat.zero_le _⟩) ?_ replay
  intro h line s line' ih hpass hnone hprompt
  obtain ⟨hbefore, hnow⟩ := (dropouts_append_eq_nil_iff h [s]).1 hnone
  obtain ⟨hall, hone⟩ := ih hbefore hprompt.before
  have hnobody : callers [s] ≠ [] → line.coming = [] := by
    intro hcalls
    have harrived : (callers h).Perm (arrivals h) := by
      refine hprompt h [] s.1 s.2 rfl ?_
      obtain ⟨r, p⟩ := s
      cases p with
      | enters => exact Or.inl rfl
      | misses => exact Or.inr rfl
      | refused | queues | takes | turnsBack | letIn | leaves | givesUp =>
          exact absurd rfl hcalls
    have hlength := harrived.length_eq
    rw [hall, List.length_append] at hlength
    exact List.eq_nil_of_length_eq_zero (by omega)
  obtain ⟨hsame, hone'⟩ := (coming_of_pass hpass hnow).2 hone hnobody
  refine ⟨?_, hone'⟩
  rw [callers_append, arrivals_append, hall, List.append_assoc, hsame, List.append_assoc]

end Line

namespace Executor

variable {e e' : Executor} {r : RunId} {run run' : Run} {job job' : Job} {signs : List Sign}

/-- A line is right about a layer if it knows who is inside and who is on the way, and if the lock
has everybody on it in the same order. -/
structure Lined
    (line : Line)
    (place : RunId → Place)
    (l : Layer) :
    Prop where
  inside : ∀ r, place r = .inside ↔ line.inside = some r
  coming : ∀ r, place r = .coming ↔ r ∈ line.coming
  distinct : line.coming.Nodup
  lock : ∀ lock, l = .delay lock → lock.line = line.everyone

/-- Who stands at a place after one run has moved. -/
theorem update_eq_iff
    {place : RunId → Place}
    {p q : Place}
    (there : RunId → Prop)
    (here : p = q ↔ there r)
    (others : ∀ k, k ≠ r → (place k = q ↔ there k))
    (k : RunId) :
    Function.update place r p k = q ↔ there k := by
  by_cases hk : k = r
  · subst hk
    simpa using here
  · simpa [hk] using others k hk

namespace Lined

variable {line : Line} {place : RunId → Place} {l : Layer} {p : Place}

/-- A run that waits is in the line. -/
theorem mem_waiting_iff
    {lock : Lock}
    (lined : Lined line place (.delay lock))
    (kept : lock.Kept place)
    (r : RunId) :
    r ∈ line.waiting ↔ place r = .waiting := by
  have hmem := kept.line r
  have hnodup := kept.nodup
  rw [lined.lock lock rfl] at hmem hnodup
  simp only [Line.everyone, List.mem_append, Option.mem_toList, List.nodup_append] at hmem hnodup
  have hnot : place r ≠ .inside → line.inside ≠ some r :=
    fun h hheld => h ((lined.inside r).2 hheld)
  cases hplace : place r with
  | outside => simpa [hplace, hnot, Place.isLined] using hmem
  | coming => simpa [hplace, hnot, Place.isLined] using hmem
  | waiting => simpa [hplace, hnot, Place.isLined] using hmem
  | inside =>
      have hheld := (lined.inside r).1 hplace
      simp only [reduceCtorEq, iff_false]
      intro hwaits
      exact hnodup.2.2 r (by simp [hheld]) r hwaits rfl

/-- The first in the line holds the lock. -/
theorem head_everyone
    {lock : Lock}
    (lined : Lined line place (.delay lock))
    (kept : lock.Kept place) :
    line.everyone.head? = lock.holder := by
  rw [← lined.lock lock rfl, Lock.line]
  cases hholder : lock.holder with
  | none => simp [kept.free hholder]
  | some r => rfl

/-- A lock that is held has somebody in its line. -/
theorem everyone_ne_nil
    {lock : Lock}
    {holder : RunId}
    (lined : Lined line place (.delay lock))
    (kept : lock.Kept place)
    (held : lock.holder = some holder) :
    line.everyone ≠ [] := by
  intro hnobody
  have hhead := (lined.head_everyone kept).trans held
  rw [hnobody] at hhead
  cases hhead

/-- A lock that is free has nobody in its line. -/
theorem everyone_eq_nil
    {lock : Lock}
    (lined : Lined line place (.delay lock))
    (kept : lock.Kept place)
    (free : lock.holder = none) :
    line.everyone = [] ∧ line.inside = none := by
  have hnobody := List.head?_eq_none_iff.1 ((lined.head_everyone kept).trans free)
  exact ⟨hnobody, by simpa [Line.everyone] using (List.append_eq_nil_iff.1 hnobody).1⟩

/-- A run that stands elsewhere is not inside. -/
theorem inside_ne
    (lined : Lined line place l)
    (elsewhere : place r ≠ .inside) :
    line.inside ≠ some r :=
  fun h => elsewhere ((lined.inside r).2 h)

/-- Nobody else goes in or leaves with a run that does neither. -/
theorem inside_of_elsewhere
    (lined : Lined line place l)
    (elsewhere : place r ≠ .inside)
    (elsewhere' : p ≠ .inside) :
    ∀ k, Function.update place r p k = .inside ↔ line.inside = some k :=
  update_eq_iff (fun k => line.inside = some k)
    (iff_of_false elsewhere' (lined.inside_ne elsewhere)) fun k _ => lined.inside k

/-- A run that goes in while nobody is inside is alone there. -/
theorem inside_of_entrance
    (lined : Lined line place l)
    (nobody : line.inside = none) :
    ∀ k, Function.update place r .inside k = .inside ↔ some r = some k :=
  update_eq_iff (fun k => some r = some k) (iff_of_true rfl rfl) fun k hk => by
    simp [lined.inside k, nobody, Ne.symm hk]

/-- Nobody else comes or goes with a run that is not on the way. -/
theorem coming_of_elsewhere
    (lined : Lined line place l)
    (elsewhere : place r ≠ .coming)
    (elsewhere' : p ≠ .coming) :
    ∀ k, Function.update place r p k = .coming ↔ k ∈ line.coming :=
  update_eq_iff (fun k => k ∈ line.coming)
    (iff_of_false elsewhere' fun h => elsewhere ((lined.coming r).2 h)) fun k _ => lined.coming k

/-- A run that has been on the way is so no longer. -/
theorem coming_of_departure
    (lined : Lined line place l)
    (elsewhere' : p ≠ .coming) :
    ∀ k, Function.update place r p k = .coming ↔ k ∈ line.coming.erase r :=
  update_eq_iff (fun k => k ∈ line.coming.erase r)
    (iff_of_false elsewhere' lined.distinct.not_mem_erase) fun k hk =>
      (lined.coming k).trans (List.mem_erase_of_ne hk).symm

end Lined

/-- A line follows the passages at a layer that holds runs back. -/
theorem follows_pass : Follows .delay Line.pass {} Lined where
  start := by
    refine ⟨by simp, by simp, List.nodup_nil, ?_⟩
    rintro lock hlock
    cases hlock
    rfl
  pass := by
    intro line place r p l l' hlined hw hkept hfrom hpassing
    have hplace : ∀ {q}, p.before ≠ q → place r ≠ q := fun hq h => hq (hfrom.symm.trans h)
    cases hpassing with
    | @enterDelay lock free =>
        obtain ⟨hnobody, hnone⟩ := hlined.everyone_eq_nil hkept free
        refine ⟨_, if_pos hnobody, hlined.inside_of_entrance hnone,
          hlined.coming_of_elsewhere (hplace (by simp [Passage.before])) (by simp [Passage.after]),
          hlined.distinct, ?_⟩
        rintro lock' hlock'
        cases hlock'
        simp [Lock.line, Line.everyone, Lock.Kept.free hkept free]
    | @take lock free =>
        obtain ⟨hnobody, hnone⟩ := hlined.everyone_eq_nil hkept free
        refine ⟨_, if_pos ⟨hnobody, (hlined.coming r).1 hfrom⟩, hlined.inside_of_entrance hnone,
          hlined.coming_of_departure (by simp [Passage.after]), hlined.distinct.erase r, ?_⟩
        rintro lock' hlock'
        cases hlock'
        simp [Lock.line, Line.everyone, Lock.Kept.free hkept free]
    | @miss lock holder held =>
        have hsomebody := hlined.everyone_ne_nil hkept held
        have hnew : r ∉ line.coming := fun h =>
          hplace (by simp [Passage.before]) ((hlined.coming r).2 h)
        refine ⟨_, if_neg (not_or.2 ⟨hsomebody, hnew⟩),
          hlined.inside_of_elsewhere (hplace (by simp [Passage.before])) (by simp [Passage.after]),
          ?_, ?_, hlined.lock⟩
        · exact update_eq_iff (fun k => k ∈ line.coming ++ [r]) (by simp [Passage.after])
            fun k hk => by simp [hlined.coming k, hk]
        · rw [← List.concat_eq_append]
          exact hlined.distinct.concat hnew
    | @join lock holder held =>
        have hsomebody := hlined.everyone_ne_nil hkept held
        have hnew : r ∉ line.everyone := by
          rw [← hlined.lock lock rfl, Lock.Kept.line hkept r, hfrom]
          exact Bool.false_ne_true
        have hcan : ¬(line.everyone = [] ∨ r ∈ line.everyone ∨ r ∉ line.coming) :=
          not_or.2 ⟨hsomebody, not_or.2 ⟨hnew, not_not.2 ((hlined.coming r).1 hfrom)⟩⟩
        refine ⟨_, if_neg hcan,
          hlined.inside_of_elsewhere (hplace (by simp [Passage.before])) (by simp [Passage.after]),
          hlined.coming_of_departure (by simp [Passage.after]), hlined.distinct.erase r, ?_⟩
        rintro lock' hlock'
        cases hlock'
        have hbehind : (lock.join r).line = lock.line ++ [r] := by simp [Lock.line, Lock.join]
        rw [hbehind, hlined.lock lock rfl]
        simp [Line.everyone]
    | turnBack lock =>
        refine ⟨_, if_pos ((hlined.coming r).1 hfrom),
          hlined.inside_of_elsewhere (hplace (by simp [Passage.before])) (by simp [Passage.after]),
          hlined.coming_of_departure (by simp [Passage.after]), hlined.distinct.erase r,
          hlined.lock⟩
    | @letIn lock held =>
        have hhead := (hlined.head_everyone hkept).trans held
        have hnone : line.inside = none := by
          refine Option.eq_none_iff_forall_ne_some.2 fun k hk => ?_
          rw [Line.everyone, hk] at hhead
          obtain rfl := Option.some.inj hhead
          exact hplace (by simp [Passage.before]) ((hlined.inside k).2 hk)
        have hfirst : line.waiting.head? = some r := by
          simpa [Line.everyone, hnone] using hhead
        refine ⟨_, if_pos ⟨hnone, hfirst⟩, hlined.inside_of_entrance hnone,
          hlined.coming_of_elsewhere (hplace (by simp [Passage.before])) (by simp [Passage.after]),
          hlined.distinct, ?_⟩
        rintro lock' hlock'
        cases hlock'
        rw [hlined.lock lock rfl, Line.everyone, hnone, ← List.cons_head?_tail hfirst]
        rfl
    | leaveDelay lock =>
        have hheld := (hlined.inside r).1 hfrom
        refine ⟨_, if_pos hheld, ?_,
          hlined.coming_of_elsewhere (hplace (by simp [Passage.before])) (by simp [Passage.after]),
          hlined.distinct, ?_⟩
        · refine update_eq_iff (fun k => none = some k) (by simp [Passage.after])
            fun k hk => ?_
          simp [hlined.inside k, hheld, Ne.symm hk]
        · rintro lock' hlock'
          cases hlock'
          have hline := Lock.line_of_held (Lock.Kept.inside hkept r hfrom)
          rw [hlined.lock lock rfl, Line.everyone, hheld] at hline
          exact (List.cons.inj hline).2.symm
    | giveUp lock =>
        have hne := hlined.inside_ne (r := r) (hplace (by simp [Passage.before]))
        refine ⟨_, if_pos ((hlined.mem_waiting_iff hkept r).2 hfrom),
          hlined.inside_of_elsewhere (hplace (by simp [Passage.before])) (by simp [Passage.after]),
          hlined.coming_of_elsewhere (hplace (by simp [Passage.before])) (by simp [Passage.after]),
          hlined.distinct, ?_⟩
        rintro lock' hlock'
        cases hlock'
        rw [Lock.line_leave, hlined.lock lock rfl, Line.everyone,
          List.erase_append_right _ (by simpa using hne)]
        rfl
    | enterSkip | refused | leaveSkip => simp [Layer.wrapper] at hw

section Moves

variable {lock : Lock} {ctx : Context}

/-- A run that arrives at a layer that holds runs back goes in if nobody is there. -/
theorem moves_of_free
    (entry : e.runs[r]? = some run)
    (decorated : e.jobs[run.job]? = some job)
    (control : run.control = .entering ctx)
    (layer : job.layers[run.stack.length]? = some (.delay lock))
    (free : lock.holder = none) :
    ∃ e', e.moves (.run r) = [e'] ∧
      e.passages run.job run.stack.length e' = [(r, .enters)] ∧
      e'.runs =
        e.runs.set r { run with stack := .delay :: run.stack, control := .entering ctx } := by
  obtain ⟨e', run', job', signs, hmoves, hwalked⟩ :=
    moves_of_arrival entry decorated control layer
  rcases hwalked.walk.at_layer control layer with
    ⟨f, l', ctx', hopens, -, rfl⟩ | ⟨hskip, -⟩ | ⟨lock', holder, hlock, held, -⟩
  · cases hopens
    refine ⟨e', hmoves, ?_, hwalked.runs⟩
    have henters := Run.passage?_eq_some (p := .enters) (place_of_arrival control)
      (run.place_push .delay ctx).1 (by simp)
    rw [passages_of_set entry hwalked.runs, if_pos rfl, henters]
    rfl
  · cases hskip
  · cases hlock
    rw [free] at held
    cases held

/-- A run that arrives at a layer that holds runs back goes to join the queue if somebody is
there. -/
theorem moves_of_held
    (entry : e.runs[r]? = some run)
    (decorated : e.jobs[run.job]? = some job)
    (control : run.control = .entering ctx)
    (layer : job.layers[run.stack.length]? = some (.delay lock))
    {holder : RunId}
    (held : lock.holder = some holder) :
    ∃ e', e.moves (.run r) = [e'] ∧
      e.passages run.job run.stack.length e' = [(r, .misses)] ∧
      e'.runs = e.runs.set r { run with control := .joining ctx } := by
  obtain ⟨e', run', job', signs, hmoves, hwalked⟩ :=
    moves_of_arrival entry decorated control layer
  rcases hwalked.walk.at_layer control layer with
    ⟨f, l', ctx', hopens, -⟩ | ⟨hskip, -⟩ | ⟨lock', holder', hlock, -, rfl⟩
  · cases hopens with
    | delay free =>
        rw [held] at free
        cases free
  · cases hskip
  · refine ⟨e', hmoves, ?_, hwalked.runs⟩
    have hmisses := Run.passage?_eq_some (p := .misses) (place_of_arrival control)
      (run.place_control (.joining ctx)).1 (by simp)
    rw [passages_of_set entry hwalked.runs, if_pos rfl, hmisses]
    rfl

/-- A run that has found the lock taken has one move. -/
theorem moves_of_joining
    (entry : e.runs[r]? = some run)
    (decorated : e.jobs[run.job]? = some job)
    (control : run.control = .joining ctx)
    (layer : job.layers[run.stack.length]? = some (.delay lock)) :
    e.moves (.run r) = [e.joinQueue r run ctx lock] := by
  simp [moves, runMoves, joinMoves, layer?, entry, control, decorated, layer]

/-- It joins the queue if somebody is there. -/
theorem queues_of_held
    (entry : e.runs[r]? = some run)
    (control : run.control = .joining ctx)
    {holder : RunId}
    (held : lock.holder = some holder) :
    e.passages run.job run.stack.length (e.joinQueue r run ctx lock) = [(r, .queues)] ∧
      (e.joinQueue r run ctx lock).runs = e.runs.set r { run with control := .queued ctx } := by
  have hruns : (e.joinQueue r run ctx lock).runs =
      e.runs.set r { run with control := .queued ctx } := by
    simp only [joinQueue, held]
    rfl
  have hqueues := Run.passage?_eq_some (p := .queues) (run.place_self.trans (by rw [control]; rfl))
    (run.place_control (.queued ctx)).1 (by simp)
  rw [passages_of_set entry hruns, if_pos rfl, hqueues]
  exact ⟨rfl, hruns⟩

/-- It goes in if nobody is there by now. -/
theorem takes_of_free
    (entry : e.runs[r]? = some run)
    (control : run.control = .joining ctx)
    (free : lock.holder = none) :
    e.passages run.job run.stack.length (e.joinQueue r run ctx lock) = [(r, .takes)] ∧
      (e.joinQueue r run ctx lock).runs =
        e.runs.set r { run with stack := .delay :: run.stack, control := .entering ctx } := by
  have hruns : (e.joinQueue r run ctx lock).runs =
      e.runs.set r { run with stack := .delay :: run.stack, control := .entering ctx } := by
    simp only [joinQueue, free]
    rfl
  have htakes := Run.passage?_eq_some (p := .takes) (run.place_self.trans (by rw [control]; rfl))
    (run.place_push .delay ctx).1 (by simp)
  rw [passages_of_set entry hruns, if_pos rfl, htakes]
  exact ⟨rfl, hruns⟩

/-- A run that waits goes in if the lock has come to it. -/
theorem moves_of_holder
    (entry : e.runs[r]? = some run)
    (decorated : e.jobs[run.job]? = some job)
    (control : run.control = .queued ctx)
    (layer : job.layers[run.stack.length]? = some (.delay lock))
    (held : lock.holder = some r) :
    ∃ e', e.moves (.run r) = [e'] ∧
      e.passages run.job run.stack.length e' = [(r, .letIn)] ∧
      e'.runs =
        e.runs.set r { run with stack := .delay :: run.stack, control := .entering ctx } := by
  have hholds : e.holdsLock r run = true := by simp [holdsLock, layer?, decorated, layer, held]
  have hruns : (e.goIn r run ctx).runs = e.runs.set r
      { run with stack := .delay :: run.stack, control := .entering ctx } := rfl
  refine ⟨e.goIn r run ctx, by simp [moves, runMoves, entry, control, hholds], ?_, hruns⟩
  have hletIn := Run.passage?_eq_some (p := .letIn) (run.place_self.trans (by rw [control]; rfl))
    (run.place_push .delay ctx).1 (by simp)
  rw [passages_of_set entry hruns, if_pos rfl, hletIn]
  rfl

/-- A run that waits cannot move until the lock has come to it. -/
theorem moves_of_waiting
    (entry : e.runs[r]? = some run)
    (decorated : e.jobs[run.job]? = some job)
    (control : run.control = .queued ctx)
    (layer : job.layers[run.stack.length]? = some (.delay lock))
    (other : lock.holder ≠ some r) :
    e.moves (.run r) = [] := by
  have hholds : e.holdsLock r run = false := by
    simpa [holdsLock, layer?, decorated, layer] using other
  simp [moves, runMoves, entry, control, hholds]

end Moves

/-- A run that wants a lock can do nothing but come nearer to it, or go in. -/
theorem Walk.keeps_door
    (h : e.Walk r run job run' job' signs)
    {d : Nat}
    (atDoor : run.place d = .coming ∨ run.place d = .waiting) :
    run'.place d ≠ .outside := by
  have hplace : run.place d ≠ .outside ∧ run.place d ≠ .inside := by
    rcases atDoor with h | h <;> simp [h]
  obtain ⟨hdoor, rfl⟩ := (Run.place_eq_iff_door hplace).1 rfl
  have haway : ∀ {c : Control}, run.control = c → c.door = .outside → False := by
    rintro c rfl houtside
    exact hplace.1 (hdoor.symm.trans houtside)
  cases h with
  | join => simp [(run.place_control _).1, Control.door]
  | take | letIn => simp [(run.place_push _ _).1]
  | enter control | skip control | miss control | call control | wake control | proceed control
  | answer control | burst control | bar control | rescue control | overflow control
  | settle control | pause control | again control | stop control | pass control | unwind control
  | finish control | escape control => exact (haway control rfl).elim

/-- Nobody gives up who is not dropped. -/
theorem Befalls.dropouts_eq_nil
    (h : e.Befalls e')
    (rooted : e.Rooted)
    (j : JobId)
    (d : Nat) :
    dropouts (e.passages j d e') = [] := by
  refine List.filterMap_eq_nil_iff.2 ?_
  rintro ⟨r, p⟩ hmem
  obtain ⟨run, run', hrun, hrun', -, hp⟩ := exists_of_mem_passages hmem
  obtain ⟨hbefore, hafter, -⟩ := Run.place_of_passage? hp
  have hstays : run.place d = .coming ∨ run.place d = .waiting → run'.place d ≠ .outside := by
    intro hdoor
    obtain ⟨run'', hrun'', hsame | ⟨job, job', signs, -, -, hwalk⟩⟩ := (h.episode rooted).run hrun
    all_goals obtain rfl := Option.some.inj (hrun'.symm.trans hrun'')
    · rw [hsame]
      rcases hdoor with h | h <;> simp [h]
    · exact hwalk.keeps_door hdoor
  cases p with
  | turnsBack => exact absurd hafter (hstays (Or.inl hbefore))
  | givesUp => exact absurd hafter (hstays (Or.inr hbefore))
  | enters | refused | misses | queues | takes | letIn | leaves => rfl

theorem Path.dropouts_eq_nil
    {e₀ : Executor}
    {steps : List (Executor × Executor)}
    (path : Path Occurs e₀ steps e)
    (runs₀ : e₀.runs = [])
    (jobs₀ : e₀.jobs = [])
    (j : JobId)
    (d : Nat)
    (befalls : ∀ s ∈ steps, s.1.Befalls s.2) :
    dropouts (history j d steps) = [] := by
  refine List.filterMap_eq_nil_iff.2 fun passage hmem => ?_
  obtain ⟨s, hs, hpassage⟩ := List.mem_flatMap.1 hmem
  obtain ⟨_, _, -, hbefore, -, -⟩ := path.of_mem hs
  have hrooted := (hbefore.orderly runs₀ jobs₀).1.rooted
  exact List.filterMap_eq_nil_iff.1 ((befalls s hs).dropouts_eq_nil hrooted j d) _ hpassage

/-- What has been seen at a layer that holds runs back: who is there now, in which order they
have come and gone, and what becomes of those who arrive and of those who wait. -/
structure InOrder
    (steps : List (Executor × Executor))
    (e : Executor)
    (j : JobId)
    (d : Nat)
    (line : Line) :
    Prop where
  /-- All passages are those of a line. -/
  replays : (history j d steps).foldlM Line.pass {} = some line
  /-- One run is inside at most. -/
  alone : ∀ r, e.places j d r = .inside ↔ line.inside = some r
  /-- All others that are there wait, -/
  waiting : ∀ r, e.places j d r = .waiting ↔ r ∈ line.waiting
  /-- or have found somebody there, and have yet to join the line. -/
  coming : ∀ r, e.places j d r = .coming ↔ r ∈ line.coming
  /-- Nobody is there twice. -/
  nodup : line.everyone.Nodup
  /-- Nobody who has come to the lock is overtaken. -/
  order : (entrances (history j d steps) ++ line.waiting).Sublist (arrivals (history j d steps))
  /-- Nobody is lost, unless somebody has been dropped. -/
  complete : (∀ s ∈ steps, s.1.Befalls s.2) →
    (callers (history j d steps)).Perm (arrivals (history j d steps) ++ line.coming) ∧
      arrivals (history j d steps) = entrances (history j d steps) ++ line.waiting
  /-- Nobody at all is overtaken if everybody comes to the lock before the next one arrives. -/
  inTurn : (∀ s ∈ steps, s.1.Befalls s.2) → Prompt (history j d steps) →
    callers (history j d steps) =
      entrances (history j d steps) ++ line.waiting ++ line.coming
  /-- A run that arrives where nobody is can do nothing but go in. -/
  enters : ∀ (r : RunId) (run : Run) (ctx : Context), e.runs[r]? = some run → run.job = j →
    run.control = .entering ctx → run.stack.length = d → line.everyone = [] →
    ∃ e', e.moves (.run r) = [e'] ∧ e.passages j d e' = [(r, .enters)] ∧
      e'.runs = e.runs.set r { run with stack := .delay :: run.stack, control := .entering ctx }
  /-- A run that arrives where somebody is can do nothing but go to join the line. -/
  misses : ∀ (r : RunId) (run : Run) (ctx : Context), e.runs[r]? = some run → run.job = j →
    run.control = .entering ctx → run.stack.length = d → line.everyone ≠ [] →
    ∃ e', e.moves (.run r) = [e'] ∧ e.passages j d e' = [(r, .misses)] ∧
      e'.runs = e.runs.set r { run with control := .joining ctx }
  /-- Where it can do nothing but join the end of the line, -/
  queues : ∀ (r : RunId) (run : Run) (ctx : Context), e.runs[r]? = some run → run.job = j →
    run.control = .joining ctx → run.stack.length = d → line.everyone ≠ [] →
    ∃ e', e.moves (.run r) = [e'] ∧ e.passages j d e' = [(r, .queues)] ∧
      e'.runs = e.runs.set r { run with control := .queued ctx }
  /-- or go in, if nobody is there by then. -/
  takes : ∀ (r : RunId) (run : Run) (ctx : Context), e.runs[r]? = some run → run.job = j →
    run.control = .joining ctx → run.stack.length = d → line.everyone = [] →
    ∃ e', e.moves (.run r) = [e'] ∧ e.passages j d e' = [(r, .takes)] ∧
      e'.runs = e.runs.set r { run with stack := .delay :: run.stack, control := .entering ctx }
  /-- The first of those who wait can do nothing but go in, once nobody is inside. -/
  letIn : ∀ (r : RunId) (run : Run) (ctx : Context), e.runs[r]? = some run → run.job = j →
    run.control = .queued ctx → run.stack.length = d → line.inside = none →
    line.waiting.head? = some r →
    ∃ e', e.moves (.run r) = [e'] ∧ e.passages j d e' = [(r, .letIn)] ∧
      e'.runs = e.runs.set r { run with stack := .delay :: run.stack, control := .entering ctx }
  /-- Nobody else of those who wait can move. -/
  heldBack : ∀ (r : RunId) (run : Run) (ctx : Context), e.runs[r]? = some run → run.job = j →
    run.control = .queued ctx → run.stack.length = d →
    line.inside ≠ none ∨ line.waiting.head? ≠ some r →
    e.moves (.run r) = []

/-- **One run after the other, in the order in which they come to the lock.**  Whatever occurs to
an executor without runs and jobs, in any order: at a layer that holds runs back there is at most
one run inside; those who have gone in and those who wait are, in this order, all that have come
to the lock and have not been dropped while they waited; and these are all that have arrived but
those that are on the way from having found somebody there to the end of the line, in the order of
arrival if each has come to the lock before the next one arrives.  A run that arrives goes in if
nobody is there and goes to join the end of the line otherwise, and of those who wait only the
first can go in, once nobody is inside. -/
theorem served_in_order
    {e₀ e : Executor}
    {steps : List (Executor × Executor)}
    {j : JobId}
    {d : Nat}
    {job : Job}
    (runs₀ : e₀.runs = [])
    (jobs₀ : e₀.jobs = [])
    (path : Path Occurs e₀ steps e)
    (decorated : e.jobs[j]? = some job)
    (layer : job.chain[d]? = some .delay) :
    ∃ line, InOrder steps e j d line := by
  obtain ⟨horderly, -⟩ := path.orderly runs₀ jobs₀
  obtain ⟨line, l, hreplays, hl, hw, hlined⟩ :=
    follows_pass.layer (Or.inr rfl) runs₀ jobs₀ path decorated layer
  have hlock : ∃ lock, l = .delay lock := by
    cases l with
    | delay lock => exact ⟨lock, rfl⟩
    | recover | track | retry | skip | trace | tag => cases hw
  obtain ⟨lock, rfl⟩ := hlock
  have hkept : lock.Kept (e.places j d) := horderly.kept j job decorated d _ hl
  have hhead := hlined.head_everyone hkept
  have hfree : line.everyone = [] → lock.holder = none := by
    intro hnobody
    rw [hnobody] at hhead
    exact hhead.symm
  have hheld : line.everyone ≠ [] → ∃ holder, lock.holder = some holder := by
    intro hsomebody
    obtain ⟨first, hfirst⟩ := Option.ne_none_iff_exists'.1
      fun h => hsomebody (List.head?_eq_none_iff.1 h)
    exact ⟨first, hhead.symm.trans hfirst⟩
  have hstay : (∀ s ∈ steps, s.1.Befalls s.2) → dropouts (history j d steps) = [] :=
    path.dropouts_eq_nil runs₀ jobs₀ j d
  obtain ⟨hsub, hall⟩ := Line.arrivals_of_replay hreplays
  refine ⟨line,
    { replays := hreplays
      alone := hlined.inside
      waiting := fun r => (hlined.mem_waiting_iff hkept r).symm
      coming := hlined.coming
      nodup := hlined.lock lock rfl ▸ hkept.nodup
      order := hsub
      complete := fun hbefalls =>
        ⟨Line.callers_of_replay hreplays (hstay hbefalls), hall (hstay hbefalls)⟩
      inTurn := ?_
      enters := ?_
      misses := ?_
      queues := ?_
      takes := ?_
      letIn := ?_
      heldBack := ?_ }⟩
  · intro hbefalls hprompt
    rw [Line.callers_of_prompt hreplays (hstay hbefalls) hprompt, hall (hstay hbefalls)]
  · rintro r run ctx entry rfl control rfl hnobody
    exact moves_of_free entry decorated control hl (hfree hnobody)
  · rintro r run ctx entry rfl control rfl hsomebody
    obtain ⟨holder, hholder⟩ := hheld hsomebody
    exact moves_of_held entry decorated control hl hholder
  · rintro r run ctx entry rfl control rfl hsomebody
    obtain ⟨holder, hholder⟩ := hheld hsomebody
    exact ⟨_, moves_of_joining entry decorated control hl, queues_of_held entry control hholder⟩
  · rintro r run ctx entry rfl control rfl hnobody
    exact ⟨_, moves_of_joining entry decorated control hl,
      takes_of_free entry control (hfree hnobody)⟩
  · rintro r run ctx entry rfl control rfl hnone hfirst
    rw [Line.everyone, hnone] at hhead
    exact moves_of_holder entry decorated control hl (hhead.symm.trans hfirst)
  · rintro r run ctx entry rfl control rfl hother
    refine moves_of_waiting entry decorated control hl fun hheld => ?_
    rw [hheld] at hhead
    rcases Option.eq_none_or_eq_some line.inside with hnone | ⟨k, hk⟩
    · rw [Line.everyone, hnone] at hhead
      exact hother.elim (fun h => h hnone) fun h => h hhead
    · rw [Line.everyone, hk] at hhead
      obtain rfl := Option.some.inj hhead
      have hinside := (hlined.inside k).2 hk
      have hwaiting : run.place run.stack.length = .waiting := by
        rw [run.place_self, control]
        rfl
      simp [places, entry, hwaiting] at hinside

/-- A job that holds runs back, the first call of which unwinds. -/
def serial : Executor :=
  (bench.addJob [.delay] "serial" .null (.ofList [{ ending := .panic .other }, {}])).1

/-- The second run arrives and joins the line while the first one is inside, and the third one
when that has just left by unwinding. -/
def queueing : List Incident :=
  [.launch 0, .launch 0, .launch 0, .move (.run 0) 0, .move (.run 1) 0, .move (.run 1) 0,
    .move (.run 0) 0, .move (.run 0) 0, .move (.run 0) 0, .move (.run 0) 0, .move (.run 2) 0,
    .move (.run 2) 0, .move (.run 1) 0]

/-- All that has occurred, from the beginning. -/
def queueUp : List (Executor × Executor) :=
  (bench, serial) :: undergone queueing serial

theorem path_serial (incidents : List Incident) :
    Path Occurs bench ((bench, serial) :: undergone incidents serial)
      (terminus serial (undergone incidents serial)) :=
  (Path.single (.befalls (.act (.change (.addJob _ _ _))))).append
    (path_undergone incidents serial fun _ _ _ _ h => occurs_of_undergo h)

theorem served_in_order_queueUp :
    bench.runs = [] ∧ bench.jobs = [] ∧
      history 0 0 queueUp =
        [(0, .enters), (1, .misses), (1, .queues), (0, .leaves), (2, .misses), (2, .queues),
          (1, .letIn)] ∧
      ∃ e, Path Occurs bench queueUp e ∧ InOrder queueUp e 0 0 ⟨some 1, [2], []⟩ := by
  let e := terminus serial (undergone queueing serial)
  have hpath : Path Occurs bench queueUp e := path_serial queueing
  have hdelays : (e.jobs[0]?).any (fun job => job.chain[0]? == some .delay) = true := by
    decide +kernel
  obtain ⟨job, hjob, hdelay⟩ := (Option.any_eq_true ..).1 hdelays
  obtain ⟨line, hline⟩ := served_in_order rfl rfl hpath hjob (beq_iff_eq.1 hdelay)
  have hlast : (history 0 0 queueUp).foldlM Line.pass {} = some ⟨some 1, [2], []⟩ := by
    decide +kernel
  obtain rfl := Option.some.inj (hline.replays.symm.trans hlast)
  exact ⟨rfl, rfl, by decide +kernel, e, hpath, hline⟩

/-- The second run finds the first one inside; before it has joined the line the first one leaves,
and the third one arrives. -/
def overtaking : List Incident :=
  [.launch 0, .launch 0, .launch 0, .move (.run 0) 0, .move (.run 1) 0, .move (.run 0) 0,
    .move (.run 0) 0, .move (.run 0) 0, .move (.run 0) 0, .move (.run 2) 0, .move (.run 1) 0,
    .move (.run 2) 0, .move (.run 2) 0, .move (.run 2) 0, .move (.run 2) 0, .move (.run 1) 0]

/-- **A run on its way to the line can be overtaken**: three runs arrive, and the third one goes
in before the second one. -/
theorem overtaken_before_queue :
    ∃ steps e, Path Occurs bench steps e ∧
      (e.jobs.map Job.chain) = [[.delay]] ∧
      history 0 0 steps =
        [(0, .enters), (1, .misses), (0, .leaves), (2, .enters), (1, .queues), (2, .leaves),
          (1, .letIn)] ∧
      callers (history 0 0 steps) = [0, 1, 2] ∧ entrances (history 0 0 steps) = [0, 2, 1] :=
  ⟨_, _, path_serial overtaking, by decide +kernel, by decide +kernel, by decide +kernel,
    by decide +kernel⟩

end Executor
end Timetable
