import Timetable.Config
import Timetable.Proofs.Executor.LastOutcomes
import Timetable.Proofs.Executor.Skipping

/-!
# Runs that are turned away

A layer that drops runs turns a run away while another one is inside.  The run returns as if it had
succeeded, and whatever is around the layer takes it for one that has.  A fault barrier does, too:
it keeps the outcome of every run that comes out of it, so a run that is turned away takes the
place of the last one that has been executed in what the job shows.  Without a fault barrier the
outcomes are kept further inside, where a run that is turned away never comes.

Main results:

* a run comes to the layer, is admitted or turned away there, and goes (Fate.walk,
  Path.fates);
* what a job shows in which overlapping runs are dropped, and when that is the outcome of the last
  execution (remembers_outcomes);
* a run that is turned away changes what the job shows (masks_outcome).
-/

namespace Timetable

/-- The gate of a chain: the wrapper at a depth drops overlapping runs, and none outside it drops
or repeats any. -/
structure Chain.Gate
    (chain : Chain)
    (d : Nat) :
    Prop where
  skip : chain[d]? = some .skip
  first : ∀ i < d, chain[i]? ≠ some .skip
  once : ∀ i < d, ∀ signal limit interval, chain[i]? ≠ some (.retry signal limit interval)

/-- The wrappers in front of the first that drops runs lead to a gate, if they repeat none. -/
theorem Chain.gate_append
    {before after : Chain}
    (plain : ∀ w ∈ before, w ≠ .skip ∧ ∀ signal limit interval, w ≠ .retry signal limit interval) :
    Chain.Gate (before ++ .skip :: after) before.length := by
  have hbefore : ∀ i < before.length, ∃ w ∈ before, (before ++ .skip :: after)[i]? = some w := by
    intro i hi
    exact ⟨before[i], List.getElem_mem hi, by
      rw [List.getElem?_append_left hi, List.getElem?_eq_getElem hi]⟩
  refine ⟨by simp, ?_, ?_⟩
  · intro i hi
    obtain ⟨w, hw, hi'⟩ := hbefore i hi
    rw [hi']
    exact fun h => (plain w hw).1 (Option.some.inj h)
  · intro i hi signal limit interval
    obtain ⟨w, hw, hi'⟩ := hbefore i hi
    rw [hi']
    exact fun h => (plain w hw).2 _ _ _ (Option.some.inj h)

/-- Outcomes are kept in front of a wrapper exactly if one of those there keeps them. -/
theorem Chain.keeper_append_lt_iff
    (before after : Chain) :
    Chain.keeper (before ++ after) < before.length ↔ ∃ w ∈ before, w.keepsOutcome = true := by
  rw [Chain.keeper, List.findIdx_append, ← List.findIdx_lt_length]
  split
  · exact iff_of_true ‹_› ‹_›
  · exact iff_of_false (by omega) ‹_›

/-- **A configuration in which overlapping runs are dropped has a gate**, and outcomes are kept
outside it exactly with a fault barrier. -/
theorem Config.exists_gate
    {c : Config}
    (skips : c.overlap = .skip)
    (signal : SignalId)
    (tracker : TrackerId) :
    ∃ d, (c.wrappers signal tracker).Gate d ∧
      ((c.wrappers signal tracker).keeper < d ↔ c.recover = true) := by
  let before : Chain := (if c.recover then [.recover] else []) ++ [.track tracker] ++
    if c.trace then [.trace .logging] else []
  have hwrappers : c.wrappers signal tracker = before ++ .skip :: c.retryWrappers signal := by
    unfold wrappers overlapWrappers
    rw [skips, List.append_assoc]
    rfl
  have hmem : ∀ w, w ∈ before ↔
      c.recover = true ∧ w = .recover ∨ w = .track tracker ∨
        c.trace = true ∧ w = .trace .logging := by
    intro w
    cases hrecover : c.recover <;> cases htrace : c.trace <;> simp [before, hrecover, htrace]
  refine ⟨before.length, ?_, ?_⟩
  · rw [hwrappers]
    refine Chain.gate_append fun w hw => ?_
    rcases (hmem w).1 hw with ⟨-, rfl⟩ | rfl | ⟨-, rfl⟩ <;> simp
  · rw [hwrappers, Chain.keeper_append_lt_iff]
    constructor
    · rintro ⟨w, hw, hkeeps⟩
      rcases (hmem w).1 hw with ⟨hrecover, -⟩ | rfl | ⟨-, rfl⟩
      · exact hrecover
      · cases hkeeps
      · cases hkeeps
    · intro hrecover
      exact ⟨.recover, (hmem _).2 (Or.inl ⟨hrecover, rfl⟩), rfl⟩

namespace Run

/-- The run has been further inside than a depth. -/
def Through
    (run : Run)
    (d : Nat) :
    Prop :=
  d < run.stack.length ∨ run.control.goes = true

/-- The run goes as one that is turned away at a depth. -/
def TurnedBack
    (run : Run)
    (d : Nat) :
    Prop :=
  run.stack.length ≤ d ∧
    (run.control = .leaving .ok ∨ run.control = .returned .ok ∨ run.control = .dropped)

theorem goes_of_turnedBack
    {run : Run}
    {d : Nat}
    (back : run.TurnedBack d) :
    run.control.goes = true := by
  rcases back.2 with h | h | h <;> rw [h] <;> rfl

/-- A run that goes and is outside a layer passes it no more. -/
theorem passage?_of_goes
    {run run' : Run}
    {d : Nat}
    (goes : run.control.goes = true)
    (out : run.stack.length ≤ d)
    (out' : run'.stack.length ≤ d)
    (free' : run'.control.door = .outside) :
    run.passage? run' d = none := by
  have hfree : run.control.door = .outside := by
    unfold Control.door
    split
    · rename_i hcontrol
      rw [hcontrol] at goes
      cases goes
    · rename_i hcontrol
      rw [hcontrol] at goes
      cases goes
    · rfl
  have harrives : run.arrivesAt d = false := by
    unfold arrivesAt
    split
    · rename_i hcontrol
      rw [hcontrol] at goes
      cases goes
    · rfl
  simp [passage?, place_of_free hfree out, place_of_free free' out', harrives]

end Run

namespace Executor

/-- What becomes of a run at the gate of its job: whether it has been admitted, whether it has been
turned away, and with which outcomes it has come out where they are kept. -/
inductive Fate
    (d k : Nat)
    (admitted refused : Prop)
    (out : Outcome → Prop)
    (run : Run) :
    Prop
  | coming
      (coming : run.Coming d)
      (notIn : ¬admitted)
      (notBack : ¬refused)
      (notOut : ∀ o, ¬out o)
  | through
      (through : run.Through d)
      (isIn : admitted)
      (notBack : ¬refused)
  | back
      (back : run.TurnedBack d)
      (notIn : ¬admitted)
      (isBack : refused)
      (masks : ∀ o, out o → o = .ok ∧ k < d)
  /-- It has been dropped before it came to the gate. -/
  | lost
      (gone : run.control = .dropped)
      (notIn : ¬admitted)
      (notBack : ¬refused)
      (notOut : ∀ o, ¬out o)

variable {e e' : Executor} {r : RunId} {run run' : Run} {job job' : Job} {signs : List Sign}
  {d k : Nat}

section Walks

/-- The layer at the gate drops runs. -/
theorem gate_layer
    (gate : job.chain.Gate d)
    {l : Layer}
    (layer : job.layers[d]? = some l) :
    l.wrapper = .skip := by
  have hskip := gate.skip
  rw [Job.chain_getElem? layer] at hskip
  exact Option.some.inj hskip

/-- A run that stays where it is, and does not return, does not pass. -/
theorem not_passing
    (same : run'.place d = run.place d)
    (onward : run'.control ≠ .leaving .ok) :
    run.passage? run' d ≠ some .enters ∧ run.passage? run' d ≠ some .refused := by
  rcases Run.passage?_of_place_eq same with hnone | ⟨-, -, -, hreturns⟩
  · simp [hnone]
  · exact absurd hreturns onward

/-- **A run that comes to the gate comes nearer, is admitted, or is turned away.** -/
theorem Walk.coming
    (h : e.Walk r run job run' job' signs)
    (gate : job.chain.Gate d)
    (coming : run.Coming d) :
    (run'.Coming d ∧ run.passage? run' d ≠ some .enters ∧ run.passage? run' d ≠ some .refused) ∨
      (run'.Through d ∧ run'.control.goes = false ∧ run.passage? run' d = some .enters) ∨
      (run'.TurnedBack d ∧ run'.stack.length = d ∧ run.passage? run' d = some .refused) := by
  have hle := coming.1
  have hinnerly : d < job.layers.length := by
    rw [← Job.length_chain]
    exact (List.getElem?_eq_some_iff.1 gate.skip).1
  have hdelay : ∀ {lock : Lock}, job.layers[run.stack.length]? = some (.delay lock) →
      run.stack.length < d := by
    intro lock layer
    refine lt_of_le_of_ne hle ?_
    rintro rfl
    cases gate_layer gate layer
  have hnearer : run.stack.length < d → run.place d = .outside := by
    intro hlt
    simp [Run.place, hlt.ne, Nat.not_lt.2 hle]
  rcases h.inwards coming hinnerly with
    ⟨f, ctx, rfl, hwants⟩ | ⟨c, lock, rfl, hdoor, layer⟩ | ⟨rfl, ⟨ctx, control⟩, layer⟩
  · rcases hle.eq_or_lt with rfl | hlt
    · have hfree : run.control.door = .outside := by
        by_contra hdoor
        obtain ⟨lock, layer⟩ := hwants hdoor
        exact absurd (hdelay layer) (lt_irrefl _)
      exact Or.inr (Or.inl ⟨Or.inl (by simp), rfl,
        Run.passage?_eq_some (p := .enters) (Run.place_of_free hfree le_rfl)
          (Run.place_of_lt (by simp)) (by simp)⟩)
    · refine Or.inl ⟨⟨hlt, Or.inl ⟨ctx, rfl⟩⟩, not_passing ?_ (by simp)⟩
      rw [hnearer hlt]
      exact Run.place_of_free rfl hlt
  · have hlt := hdelay layer
    refine Or.inl ⟨⟨hle, Or.inr hdoor⟩, not_passing ?_ fun h => hdoor (congrArg Control.door h)⟩
    rw [hnearer hlt]
    simp [Run.place, hlt.ne, Nat.not_lt.2 hle]
  · have hd : run.stack.length = d := by
      by_contra hne
      exact gate.first _ (lt_of_le_of_ne hle hne) (Job.chain_getElem? layer)
    subst hd
    refine Or.inr (Or.inr ⟨⟨le_rfl, Or.inl rfl⟩, rfl, ?_⟩)
    have houtside : Run.place { run with control := .leaving .ok } run.stack.length = .outside :=
      Run.place_of_free rfl le_rfl
    simp [Run.passage?, place_of_arrival control, houtside, Run.arrivesAt, control]

/-- A frame outside the gate repeats nothing. -/
theorem not_retry_of_gate
    (gate : job.chain.Gate d)
    (fits : job.chain.Fits run.stack)
    {f : Frame}
    {frames : List Frame}
    (stack : run.stack = f :: frames)
    (out : frames.length < d) :
    ∀ shutdown ctx repeated due, f ≠ .retry shutdown ctx repeated due := by
  rintro shutdown ctx repeated due rfl
  rw [stack] at fits
  obtain ⟨⟨w, hw, hfits⟩, -⟩ := fits
  cases w with
  | retry signal limit interval => exact gate.once _ out _ _ _ hw
  | recover | track | skip | delay | trace | tag => cases hfits

/-- **A run that has been inside the gate goes on there, or goes for good.** -/
theorem Walk.through
    (h : e.Walk r run job run' job' signs)
    (gate : job.chain.Gate d)
    (fits : job.chain.Fits run.stack)
    (through : run.Through d) :
    run'.Through d ∧ run.passage? run' d ≠ some .enters ∧ run.passage? run' d ≠ some .refused := by
  rcases Nat.lt_or_ge d run.stack.length with hlt | hle
  · have hinside := Run.place_of_lt hlt
    have hpassage : run.passage? run' d ≠ some .enters ∧ run.passage? run' d ≠ some .refused := by
      constructor <;>
        · intro hpassage
          have hfrom := (Run.place_of_passage? hpassage).1
          rw [hinside] at hfrom
          cases hfrom
    refine ⟨?_, hpassage⟩
    cases h with
    | enter | take | letIn => exact Or.inl (Nat.lt_succ_of_lt hlt)
    | skip | miss | join | call | wake | proceed | answer | burst => exact Or.inl hlt
    | pause control stack | again control stack => exact Or.inl (by rw [stack] at hlt; exact hlt)
    | bar | rescue | overflow | settle | stop | pass | unwind | finish | escape => exact Or.inr rfl
  · have hgoes := through.resolve_left (Nat.not_lt.2 hle)
    have hstays : ∀ {c : Control}, run.control = c → c.goes = true := fun hc => hc ▸ hgoes
    have hpop : ∀ {f frames}, run.stack = f :: frames → frames.length < d := by
      intro f frames stack
      rw [stack] at hle
      exact hle
    have hout : run'.control.goes = true → run'.control.door = .outside → run'.stack.length ≤ d →
        run'.Through d ∧ run.passage? run' d ≠ some .enters ∧
          run.passage? run' d ≠ some .refused := by
      intro hgoes' hfree' hle'
      rw [Run.passage?_of_goes hgoes hle hle' hfree']
      exact ⟨Or.inr hgoes', by simp, by simp⟩
    cases h with
    | enter control | skip control | miss control | join control | take control | letIn control
    | call control | wake control | proceed control | answer control | burst control
    | again control | stop control =>
        cases hstays control
    | pause control stack =>
        exact absurd rfl (not_retry_of_gate gate fits stack (hpop stack) _ _ _ _)
    | bar control stack | rescue control stack | overflow control stack | settle control stack
    | pass control stack | unwind control stack => exact hout rfl rfl (hpop stack).le
    | finish | escape => exact hout rfl rfl hle

/-- **A run that is turned away goes, and comes out only as one that has succeeded.** -/
theorem Walk.turnedBack
    (h : e.Walk r run job run' job' signs)
    (gate : job.chain.Gate d)
    (fits : job.chain.Fits run.stack)
    (back : run.TurnedBack d) :
    run'.TurnedBack d ∧ run.passage? run' d = none ∧
      ∀ o, run.emerges? run' k = some o → o = .ok ∧ k < d := by
  have hgoes := Run.goes_of_turnedBack back
  obtain ⟨hle, hcontrol⟩ := back
  have hno : ∀ {c : Control}, run.control = c → c ≠ .leaving .ok → c ≠ .returned .ok →
      c ≠ .dropped → False := by
    rintro c rfl h₁ h₂ h₃
    rcases hcontrol with h | h | h
    · exact h₁ h
    · exact h₂ h
    · exact h₃ h
  have hok : ∀ {o : Outcome}, run.control = .leaving o → o = .ok := by
    intro o hc
    by_contra hne
    exact hno hc (by simpa using hne) (by simp) (by simp)
  have hpop : ∀ {f : Frame} {frames : List Frame} {o : Outcome}, run.control = .leaving o →
      run.stack = f :: frames → run' = { run with stack := frames, control := .leaving o } →
      run'.TurnedBack d ∧ run.passage? run' d = none ∧
        ∀ o, run.emerges? run' k = some o → o = .ok ∧ k < d := by
    rintro f frames o hc stack rfl
    obtain rfl := hok hc
    have hlt : frames.length < d := by rw [stack] at hle; exact hle
    refine ⟨⟨hlt.le, Or.inl rfl⟩, Run.passage?_of_goes hgoes hle hlt.le rfl, ?_⟩
    intro o hemerges
    obtain ⟨rfl, hleaving⟩ := Run.of_emerges? hemerges
    exact ⟨(Control.leaving.inj hleaving).symm, hlt⟩
  cases h with
  | bar control stack | pass control stack => exact hpop control stack rfl
  | overflow control stack | settle control stack | pause control stack =>
      refine absurd rfl (not_retry_of_gate gate fits stack ?_ _ _ _ _)
      rw [stack] at hle
      exact hle
  | finish control stack =>
      obtain rfl := hok control
      refine ⟨⟨hle, Or.inr (Or.inl rfl)⟩, Run.passage?_of_goes hgoes hle hle rfl, ?_⟩
      intro o hemerges
      obtain ⟨-, hleaving⟩ := Run.of_emerges? hemerges
      cases hleaving
  | enter control | skip control | miss control | join control | take control | letIn control
  | call control | wake control | proceed control | answer control | burst control
  | rescue control | again control | stop control | unwind control | escape control =>
      exact (hno control (by simp) (by simp) (by simp)).elim

end Walks

/-- Outcomes are kept outside the gate, or further inside. -/
theorem ne_of_gate
    {c : Chain}
    (gate : c.Gate d)
    (keeps : c.KeepsAt k) :
    k ≠ d := by
  rintro rfl
  have hskip := keeps.layer _ gate.skip
  cases hskip

section Fates

variable {admitted refused : Prop} {out : Outcome → Prop}

/-- **With every move a run meets its fate.** -/
theorem Fate.walk
    (fate : Fate d k admitted refused out run)
    (h : e.Walk r run job run' job' signs)
    (gate : job.chain.Gate d)
    (fits : job.chain.Fits run.stack)
    (keeps : job.chain.KeepsAt k) :
    Fate d k (admitted ∨ run.passage? run' d = some .enters)
      (refused ∨ run.passage? run' d = some .refused)
      (fun o => out o ∨ run.emerges? run' k = some o) run' := by
  cases fate with
  | coming hcoming notIn notBack notOut =>
      rcases h.coming gate hcoming with
        ⟨hcoming', hnotIn, hnotBack⟩ | ⟨hthrough, hstays, henters⟩ | ⟨hback, hdepth, hrefused⟩
      · refine .coming hcoming' (not_or.2 ⟨notIn, hnotIn⟩) (not_or.2 ⟨notBack, hnotBack⟩) ?_
        rintro o (hout | hemerges)
        · exact notOut o hout
        · obtain ⟨-, hleaving⟩ := Run.of_emerges? hemerges
          rcases hcoming'.2 with ⟨ctx, hctx⟩ | hdoor
          · rw [hctx] at hleaving
            cases hleaving
          · exact absurd (congrArg Control.door hleaving) hdoor
      · exact .through hthrough (Or.inr henters) (not_or.2 ⟨notBack, by simp [henters]⟩)
      · refine .back hback (not_or.2 ⟨notIn, by simp [hrefused]⟩) (Or.inr hrefused) ?_
        rintro o (hout | hemerges)
        · exact absurd hout (notOut o)
        · exact absurd ((Run.of_emerges? hemerges).1.symm.trans hdepth) (ne_of_gate gate keeps)
  | through hthrough isIn notBack =>
      obtain ⟨hthrough', -, hnotBack⟩ := h.through gate fits hthrough
      exact .through hthrough' (Or.inl isIn) (not_or.2 ⟨notBack, hnotBack⟩)
  | back hback notIn isBack masks =>
      obtain ⟨hback', hpassage, hemerges⟩ := h.turnedBack gate fits hback
      refine .back hback' (not_or.2 ⟨notIn, by simp [hpassage]⟩) (Or.inl isBack) ?_
      rintro o (hout | hout)
      · exact masks o hout
      · exact hemerges o hout
  | lost gone =>
      have hlasts := h.lasts
      rw [Run.isOver, gone] at hlasts
      cases hlasts

/-- A run that is dropped meets its fate, too. -/
theorem Fate.drop
    (fate : Fate d k admitted refused out run) :
    let run' : Run := { run with stack := [], control := .dropped }
    Fate d k (admitted ∨ run.passage? run' d = some .enters)
      (refused ∨ run.passage? run' d = some .refused)
      (fun o => out o ∨ run.emerges? run' k = some o) run' := by
  intro run'
  have hnotIn : run.passage? run' d ≠ some .enters := by
    intro henters
    have hinside := (Run.place_of_passage? henters).2.1
    rw [Run.place_of_free rfl (Nat.zero_le _)] at hinside
    cases hinside
  have hnotBack : run.passage? run' d ≠ some .refused := by
    intro hrefused
    obtain ⟨-, hreturns⟩ := (Run.place_of_passage? hrefused).2.2 rfl
    cases hreturns
  have hnotOut : ∀ o, run.emerges? run' k ≠ some o := by
    simp [run', emerges?_dropped]
  have hout : ∀ o, out o ∨ run.emerges? run' k = some o → out o := fun o h =>
    h.resolve_right (hnotOut o)
  cases fate with
  | coming _ notIn notBack notOut | lost _ notIn notBack notOut =>
      exact .lost rfl (not_or.2 ⟨notIn, hnotIn⟩) (not_or.2 ⟨notBack, hnotBack⟩)
        fun o h => notOut o (hout o h)
  | through _ isIn notBack =>
      exact .through (Or.inr rfl) (Or.inl isIn) (not_or.2 ⟨notBack, hnotBack⟩)
  | back _ notIn isBack masks =>
      exact .back ⟨Nat.zero_le _, Or.inr (Or.inr rfl)⟩ (not_or.2 ⟨notIn, hnotIn⟩) (Or.inl isBack)
        fun o h => masks o (hout o h)

end Fates

section Histories

variable {j : JobId} {l : List (Executor × Executor)}

theorem mem_passages_iff
    {p : Passage} :
    (r, p) ∈ e.passages j d e' ↔ e.passage? j d e' r = some p := by
  constructor
  · intro h
    obtain ⟨i, -, hi⟩ := List.mem_filterMap.1 h
    obtain ⟨p', hp, hpair⟩ := Option.map_eq_some_iff.1 hi
    cases hpair
    exact hp
  · intro h
    refine List.mem_filterMap.2 ⟨r, List.mem_range.2 ?_, by rw [h]; rfl⟩
    unfold passage? at h
    split at h
    · exact (List.getElem?_eq_some_iff.1 ‹_›).1
    · cases h

theorem mem_emerged_iff
    {o : Outcome} :
    (r, o) ∈ emerged j k (e, e') ↔ emerges? j k (e, e') r = some o := by
  constructor
  · intro h
    obtain ⟨i, -, hi⟩ := List.mem_filterMap.1 h
    obtain ⟨o', ho, hpair⟩ := Option.map_eq_some_iff.1 hi
    cases hpair
    exact ho
  · intro h
    refine List.mem_filterMap.2 ⟨r, List.mem_range.2 ?_, by rw [h]; rfl⟩
    unfold emerges? at h
    split at h
    · exact (List.getElem?_eq_some_iff.1 ‹_›).1
    · cases h

/-- What has been seen of a run at the gate of its job, and where outcomes are kept. -/
def FateOf
    (j : JobId)
    (d k : Nat)
    (l : List (Executor × Executor))
    (r : RunId)
    (run : Run) :
    Prop :=
  Fate d k ((r, .enters) ∈ history j d l) ((r, .refused) ∈ history j d l)
    (fun o => (r, o) ∈ outcomes j k l) run

/-- A run that changes meets its fate. -/
theorem FateOf.next
    (hj : run.job = j)
    (entry : e.runs[r]? = some run)
    (entry' : e'.runs[r]? = some run')
    (next : Fate d k ((r, .enters) ∈ history j d l ∨ run.passage? run' d = some .enters)
      ((r, .refused) ∈ history j d l ∨ run.passage? run' d = some .refused)
      (fun o => (r, o) ∈ outcomes j k l ∨ run.emerges? run' k = some o) run') :
    FateOf j d k (l ++ [(e, e')]) r run' := by
  have hpassage : e.passage? j d e' r = run.passage? run' d := by
    simp [passage?, entry, entry', hj]
  have hemerges : emerges? j k (e, e') r = run.emerges? run' k := by
    simp [emerges?, entry, entry', hj]
  unfold FateOf
  simp only [history_concat, outcomes_concat, List.mem_append, mem_passages_iff, mem_emerged_iff,
    hpassage, hemerges]
  exact next

/-- A run that stays as it is keeps its fate. -/
theorem FateOf.stay
    (fate : FateOf j d k l r run)
    (same : e'.runs[r]? = e.runs[r]?) :
    FateOf j d k (l ++ [(e, e')]) r run := by
  unfold FateOf
  simp only [history_concat, outcomes_concat, List.mem_append, mem_passages_iff, mem_emerged_iff,
    passage?_of_entry_eq same, emerges?_of_entry_eq same, reduceCtorEq, or_false]
  exact fate

/-- **Whatever becomes of a run, it meets its fate.** -/
theorem FateOf.becomes
    (fate : FateOf j d k l r run)
    (h : e.Becomes r run job run')
    (hj : run.job = j)
    (entry : e.runs[r]? = some run)
    (entry' : e'.runs[r]? = some run')
    (gate : job.chain.Gate d)
    (fits : job.chain.Fits run.stack)
    (keeps : job.chain.KeepsAt k) :
    FateOf j d k (l ++ [(e, e')]) r run' := by
  cases h with
  | stays => exact fate.stay (entry'.trans entry.symm)
  | drops => exact .next hj entry entry' (Fate.drop fate)
  | walks walk => exact .next hj entry entry' (Fate.walk fate walk gate fits keeps)

/-- Nothing is seen of a run that is none of the job. -/
theorem unseen_next
    (unseen : (∀ p, (r, p) ∉ history j d l) ∧ ∀ o, (r, o) ∉ outcomes j k l)
    (foreign : ∀ run, e.runs[r]? = some run → run.job ≠ j) :
    (∀ p, (r, p) ∉ history j d (l ++ [(e, e')])) ∧
      ∀ o, (r, o) ∉ outcomes j k (l ++ [(e, e')]) := by
  have hpassage : e.passage? j d e' r = none := by
    unfold passage?
    split
    · exact if_neg (foreign _ ‹_›)
    · rfl
  have hemerges : emerges? j k (e, e') r = none := by
    unfold emerges?
    split
    · exact if_neg (foreign _ ‹_›)
    · rfl
  simpa [history_concat, outcomes_concat, mem_passages_iff, mem_emerged_iff, hpassage, hemerges]
    using unseen

/-- A run that has not moved comes to the gate. -/
theorem fateOf_unmoved
    (unseen : (∀ p, (r, p) ∉ history j d l) ∧ ∀ o, (r, o) ∉ outcomes j k l)
    (unmoved : run.Unmoved) :
    FateOf j d k l r run := by
  obtain ⟨hstack, ctx, hcontrol⟩ := unmoved
  refine .coming ⟨?_, Or.inl ⟨ctx, hcontrol⟩⟩ (unseen.1 _) (unseen.1 _) unseen.2
  rw [hstack]
  exact Nat.zero_le d

/-- **From nothing on, every run of a job with a gate has met its fate.** -/
theorem Path.fates
    {e₀ : Executor}
    (path : Path Occurs e₀ l e)
    (runs₀ : e₀.runs = [])
    (jobs₀ : e₀.jobs = [])
    {c : Chain}
    (made : ∀ job, e.jobs[j]? = some job → job.chain = c)
    (gate : c.Gate d)
    (keeps : c.KeepsAt k) :
    (∀ r run, e.runs[r]? = some run → run.job = j → FateOf j d k l r run) ∧
      ∀ r, (∀ run, e.runs[r]? = some run → run.job ≠ j) →
        (∀ p, (r, p) ∉ history j d l) ∧ ∀ o, (r, o) ∉ outcomes j k l := by
  induction path with
  | start => exact ⟨fun r run entry => by simp [runs₀] at entry, fun r _ => ⟨nofun, nofun⟩⟩
  | @next l b b' path last ih =>
      have horderly := (path.orderly runs₀ jobs₀).1
      have hmade : ∀ job, b.jobs[j]? = some job → job.chain = c := by
        intro job hjob
        obtain ⟨job', hjob', hchain⟩ := last.chain horderly hjob
        rw [← hchain]
        exact made job' hjob'
      obtain ⟨hfates, hunseen⟩ := ih hmade
      refine ⟨fun r run' entry' hj => ?_, fun r foreign => ?_⟩
      · cases entry : b.runs[r]? with
        | none =>
            have hnone : ∀ run, b.runs[r]? = some run → run.job ≠ j := by simp [entry]
            exact fateOf_unmoved (unseen_next (hunseen r hnone) hnone)
              (last.unmoved horderly entry' entry)
        | some run =>
            obtain ⟨run₁, entry₁, hruns⟩ := last.alters horderly entry
            obtain rfl := Option.some.inj (entry'.symm.trans entry₁)
            rcases hruns with rfl | ⟨job, hown, hbecomes⟩
            · exact (hfates r run' entry hj).stay (entry'.trans entry.symm)
            · rw [hbecomes.job_eq] at hj
              have hchain := hmade job (hj ▸ hown)
              exact (hfates r run entry hj).becomes hbecomes hj entry entry' (hchain ▸ gate)
                (horderly.fits run (List.mem_of_getElem? entry) job hown) (hchain ▸ keeps)
      · have hforeign : ∀ run, b.runs[r]? = some run → run.job ≠ j := by
          intro run entry hj
          obtain ⟨run', hrun', hsame⟩ := last.keeps_run horderly entry
          exact foreign run' hrun' (hsame.trans hj)
        exact unseen_next (hunseen r hforeign) hforeign

end Histories

/-- What the job shows changes exactly with the runs that come out of its keeper. -/
theorem Occurs.lastOutcome
    {j : JobId}
    (occurs : e.Occurs e')
    (orderly : e.Orderly)
    (inmost : e.Inmost)
    (decorated : e.jobs[j]? = some job) :
    e'.lastOutcome j =
      (((emerged j job.chain.keeper (e, e')).getLast?).map Prod.snd).or (e.lastOutcome j) := by
  obtain ⟨job', hjob', hchain⟩ := occurs.chain orderly decorated
  have hshown := occurs.shown orderly inmost decorated hjob' job.chain.keepsAt_keeper
  rw [Executor.lastOutcome, Executor.lastOutcome, hjob', decorated, Option.bind_some,
    Option.bind_some, Job.lastOutcome_eq_shown, Job.lastOutcome_eq_shown, hchain]
  exact hshown

/-- The runs that have been admitted at the gate and have come out, with their outcomes. -/
def executions
    (j : JobId)
    (d k : Nat)
    (l : List (Executor × Executor)) :
    List (RunId × Outcome) :=
  (outcomes j k l).filter fun x => (history j d l).contains (x.1, .enters)

/-- What a job shows that drops overlapping runs. -/
structure Remembers
    (masks : Prop)
    (j : JobId)
    (d k : Nat)
    (l : List (Executor × Executor))
    (e : Executor) :
    Prop where
  /-- It shows the outcome with which the last run has come out. -/
  shows : e.lastOutcome j = ((outcomes j k l).getLast?).map Prod.snd
  /-- A run that has come out has been admitted or turned away, and not both. -/
  parted : ∀ r o, (r, o) ∈ outcomes j k l →
    ((r, .enters) ∈ history j d l ↔ (r, .refused) ∉ history j d l)
  /-- A run that is turned away comes out only where it masks others, and as a success. -/
  masking : ∀ r o, (r, o) ∈ outcomes j k l → (r, .refused) ∈ history j d l → o = .ok ∧ masks
  /-- With a step of a run that is turned away the job shows what it has shown before, or the
  success with which that run comes out, where it masks others. -/
  frame : ∀ s ∈ l, ∀ (r : RunId) (run run' : Run), (r, .refused) ∈ history j d l →
    s.1.runs[r]? = some run → s.2.runs[r]? = some run' → run' ≠ run →
    (emerged j k s = [] ∧ s.2.lastOutcome j = s.1.lastOutcome j) ∨
      (masks ∧ emerged j k s = [(r, .ok)] ∧ s.2.lastOutcome j = some .ok)
  /-- The job shows the outcome of the last execution, exactly unless a run that was turned away has
  come out since and that execution has failed, or there is none. -/
  truthful : e.lastOutcome j = ((executions j d k l).getLast?).map Prod.snd ↔
    ¬masks ∨ (∀ r o, (outcomes j k l).getLast? = some (r, o) → (r, .enters) ∈ history j d l) ∨
      ((executions j d k l).getLast?).map Prod.snd = some .ok

/-- The last outcome is that of the last execution exactly unless it masks that one. -/
theorem last_masked_iff
    {xs : List (RunId × Outcome)}
    {p : RunId × Outcome → Bool}
    {masks : Prop}
    (masked : ∀ x ∈ xs, p x = false → x.2 = .ok ∧ masks) :
    (xs.getLast?).map Prod.snd = ((xs.filter p).getLast?).map Prod.snd ↔
      ¬masks ∨ (∀ x, xs.getLast? = some x → p x = true) ∨
        ((xs.filter p).getLast?).map Prod.snd = some .ok := by
  have hlast : ∀ {x}, xs.getLast? = some x → p x = true → (xs.filter p).getLast? = some x := by
    intro x hx hpass
    obtain ⟨ys, rfl⟩ := List.getLast?_eq_some_iff.1 hx
    rw [List.filter_append, List.filter_singleton, hpass]
    exact List.getLast?_concat
  rcases Option.eq_none_or_eq_some xs.getLast? with hnone | ⟨x, hx⟩
  · obtain rfl := List.getLast?_eq_none_iff.1 hnone
    simp
  have hmem := List.mem_of_getLast? hx
  cases hpass : p x with
  | true =>
      refine iff_of_true (by rw [hx, hlast hx hpass]) (Or.inr (Or.inl fun y hy => ?_))
      rwa [Option.some.inj (hy.symm.trans hx)]
  | false =>
      obtain ⟨hok, hmasks⟩ := masked x hmem hpass
      have hnot : ¬∀ y, some x = some y → p y = true := fun h => by
        rw [h x rfl] at hpass
        cases hpass
      rw [hx, Option.map_some, hok, eq_comm]
      refine ⟨fun h => Or.inr (Or.inr h), ?_⟩
      rintro (h | h | h)
      · exact absurd hmasks h
      · exact absurd h hnot
      · exact h

section Remembering

variable {j : JobId} {l : List (Executor × Executor)}

/-- Where a run changes, it is the only one that may come out. -/
theorem Touch.emerged_of_moved
    (touch : e.Touch e')
    (entry : e.runs[r]? = some run)
    (entry' : e'.runs[r]? = some run')
    (moved : run' ≠ run)
    (k : Nat) :
    emerged run.job k (e, e') = ((run.emerges? run' k).map fun o => (r, o)).toList := by
  cases touch with
  | @changes i _ moved₁ _ _ hmoved _ _ runs =>
      have hi : i = r := by
        by_contra hne
        rw [runs, List.getElem?_set_ne hne, entry] at entry'
        exact moved (Option.some.inj entry').symm
      subst hi
      obtain rfl := Option.some.inj (entry.symm.trans hmoved)
      rw [runs, List.getElem?_set_self (List.getElem?_eq_some_iff.1 entry).1] at entry'
      obtain rfl := Option.some.inj entry'
      rw [emerged_of_set entry runs, if_pos rfl]
  | spares runs =>
      rw [runs r run entry] at entry'
      exact absurd (Option.some.inj entry').symm moved

variable {e₀ : Executor}

/-- Whoever has been seen at the gate or the keeper is a run of the job, and has met its fate. -/
theorem Path.fate_of_seen
    (path : Path Occurs e₀ l e)
    (runs₀ : e₀.runs = [])
    (jobs₀ : e₀.jobs = [])
    (decorated : e.jobs[j]? = some job)
    (gate : job.chain.Gate d)
    (keeps : job.chain.KeepsAt k)
    (seen : (∃ p, (r, p) ∈ history j d l) ∨ ∃ o, (r, o) ∈ outcomes j k l) :
    ∃ run, e.runs[r]? = some run ∧ run.job = j ∧ FateOf j d k l r run := by
  have hmade : ∀ own, e.jobs[j]? = some own → own.chain = job.chain := by
    intro own hown
    rw [Option.some.inj (hown.symm.trans decorated)]
  obtain ⟨hfates, hunseen⟩ := path.fates runs₀ jobs₀ hmade gate keeps
  by_contra hnot
  have hforeign : ∀ run, e.runs[r]? = some run → run.job ≠ j := fun run entry hj =>
    hnot ⟨run, entry, hj, hfates r run entry hj⟩
  obtain ⟨hnoPassage, hnoOutcome⟩ := hunseen r hforeign
  rcases seen with ⟨p, hp⟩ | ⟨o, ho⟩
  · exact hnoPassage p hp
  · exact hnoOutcome o ho

/-- **Whoever has come out has been admitted or turned away**, and not both. -/
theorem Path.parted
    (path : Path Occurs e₀ l e)
    (runs₀ : e₀.runs = [])
    (jobs₀ : e₀.jobs = [])
    (decorated : e.jobs[j]? = some job)
    (gate : job.chain.Gate d)
    (keeps : job.chain.KeepsAt k)
    {o : Outcome}
    (out : (r, o) ∈ outcomes j k l) :
    (r, .enters) ∈ history j d l ↔ (r, .refused) ∉ history j d l := by
  obtain ⟨run, -, -, hfate⟩ :=
    path.fate_of_seen runs₀ jobs₀ decorated gate keeps (Or.inr ⟨o, out⟩)
  cases hfate with
  | coming _ _ _ notOut | lost _ _ _ notOut => exact absurd out (notOut o)
  | through _ isIn notBack => exact iff_of_true isIn notBack
  | back _ notIn isBack => exact iff_of_false notIn (not_not.2 isBack)

/-- **Whoever is turned away comes out as one that has succeeded**, and only outside the gate. -/
theorem Path.masking
    (path : Path Occurs e₀ l e)
    (runs₀ : e₀.runs = [])
    (jobs₀ : e₀.jobs = [])
    (decorated : e.jobs[j]? = some job)
    (gate : job.chain.Gate d)
    (keeps : job.chain.KeepsAt k)
    {o : Outcome}
    (out : (r, o) ∈ outcomes j k l)
    (refused : (r, .refused) ∈ history j d l) :
    o = .ok ∧ k < d := by
  obtain ⟨run, -, -, hfate⟩ :=
    path.fate_of_seen runs₀ jobs₀ decorated gate keeps (Or.inr ⟨o, out⟩)
  cases hfate with
  | coming _ _ notBack | through _ _ notBack | lost _ _ notBack => exact absurd refused notBack
  | back _ _ _ masks => exact masks o out

/-- **With a step of a run what the job shows changes as the run comes out.** -/
theorem Path.shown_after
    (path : Path Occurs e₀ l e)
    (runs₀ : e₀.runs = [])
    (jobs₀ : e₀.jobs = [])
    (decorated : e.jobs[j]? = some job)
    {s : Executor × Executor}
    (onPath : s ∈ l)
    (entry : s.1.runs[r]? = some run)
    (entry' : s.2.runs[r]? = some run')
    (moved : run' ≠ run)
    (hj : run.job = j) :
    emerged j job.chain.keeper s =
        ((run.emerges? run' job.chain.keeper).map fun o => (r, o)).toList ∧
      s.2.lastOutcome j = (run.emerges? run' job.chain.keeper).or (s.1.lastOutcome j) := by
  obtain ⟨before, after, -, hbefore, hoccurs, hafter⟩ := path.of_mem onPath
  obtain ⟨horderly, -⟩ := hbefore.orderly runs₀ jobs₀
  obtain ⟨own, hown, -⟩ := hoccurs.changed horderly entry entry' moved
  rw [hj] at hown
  have hchain : own.chain = job.chain := by
    obtain ⟨own₁, hown₁, hchain₁⟩ := hoccurs.chain horderly hown
    obtain ⟨-, own₂, hown₂, hchain₂⟩ := hafter.keeps_chain (horderly.occurs hoccurs) hown₁
    rw [Option.some.inj (decorated.symm.trans hown₂), hchain₂, hchain₁]
  have hemerged : emerged j job.chain.keeper s =
      ((run.emerges? run' job.chain.keeper).map fun o => (r, o)).toList :=
    hj ▸ (hoccurs.touch horderly.rooted).emerged_of_moved entry entry' moved _
  have hshown := hoccurs.lastOutcome horderly (hbefore.inmost runs₀ jobs₀) hown
  rw [hchain, show (s.1, s.2) = s from rfl, hemerged] at hshown
  refine ⟨hemerged, hshown.trans ?_⟩
  cases run.emerges? run' job.chain.keeper <;> rfl

/-- **What a job shows is told by the runs that come out of its keeper**, and those that are turned
away come out only where the keeper is outside the gate. -/
theorem remembers_of_gate
    (runs₀ : e₀.runs = [])
    (jobs₀ : e₀.jobs = [])
    (path : Path Occurs e₀ l e)
    (decorated : e.jobs[j]? = some job)
    (gate : job.chain.Gate d) :
    Remembers (job.chain.keeper < d) j d job.chain.keeper l e := by
  have hkeeps := job.chain.keepsAt_keeper
  have hshows := lastOutcome_eq_last runs₀ jobs₀ path decorated
  have hparted : ∀ r o, (r, o) ∈ outcomes j job.chain.keeper l →
      ((r, .enters) ∈ history j d l ↔ (r, .refused) ∉ history j d l) := fun _ _ =>
    path.parted runs₀ jobs₀ decorated gate hkeeps
  have hmasking : ∀ r o, (r, o) ∈ outcomes j job.chain.keeper l → (r, .refused) ∈ history j d l →
      o = .ok ∧ job.chain.keeper < d := fun _ _ =>
    path.masking runs₀ jobs₀ decorated gate hkeeps
  refine ⟨hshows, hparted, hmasking, ?_, ?_⟩
  · intro s hs r run run' hrefused entry entry' hmoved
    obtain ⟨last, hlast, hj, -⟩ :=
      path.fate_of_seen runs₀ jobs₀ decorated gate hkeeps (Or.inl ⟨_, hrefused⟩)
    have hown : run.job = j := by
      obtain ⟨_, _, -, hbefore, hoccurs, hafter⟩ := path.of_mem hs
      obtain ⟨horderly, -⟩ := hbefore.orderly runs₀ jobs₀
      obtain ⟨-, run₁, hrun₁, hjob₁⟩ :=
        ((Path.single hoccurs).append hafter).keeps_run horderly entry
      obtain rfl := Option.some.inj (hlast.symm.trans hrun₁)
      exact hjob₁.symm.trans hj
    obtain ⟨hemerged, hshown⟩ :=
      path.shown_after runs₀ jobs₀ decorated hs entry entry' hmoved hown
    cases hemerges : run.emerges? run' job.chain.keeper with
    | none =>
        rw [hemerges] at hemerged hshown
        exact Or.inl ⟨hemerged, hshown⟩
    | some o =>
        rw [hemerges] at hemerged hshown
        have hout : (r, o) ∈ outcomes j job.chain.keeper l :=
          List.mem_flatMap.2 ⟨s, hs, by rw [hemerged]; exact List.mem_cons_self⟩
        obtain ⟨rfl, hmasks⟩ := hmasking r o hout hrefused
        exact Or.inr ⟨hmasks, hemerged, hshown⟩
  · have hmasked : ∀ x ∈ outcomes j job.chain.keeper l,
        (history j d l).contains (x.1, .enters) = false → x.2 = .ok ∧ job.chain.keeper < d := by
      intro x hx hnotIn
      refine hmasking x.1 x.2 hx ?_
      by_contra hnotBack
      have hisIn := (hparted x.1 x.2 hx).2 hnotBack
      simp [hisIn] at hnotIn
    rw [hshows, executions, last_masked_iff hmasked]
    simp

/-- **What a job shows in which overlapping runs are dropped.**  Without a fault barrier it shows
the outcome of the last execution, always; with one it does so only until a run that is turned
away comes out. -/
theorem remembers_outcomes
    {c : Config}
    {signal : SignalId}
    {tracker : TrackerId}
    {chain : Chain}
    (configured : c.chain signal tracker = .ok chain)
    (skips : c.overlap = .skip)
    {e₀ : Executor}
    (runs₀ : e₀.runs = [])
    (jobs₀ : e₀.jobs = [])
    (path : Path Occurs e₀ l e)
    (decorated : e.jobs[j]? = some job)
    (made : job.chain = chain) :
    ∃ d, chain.Gate d ∧ Remembers (c.recover = true) j d chain.keeper l e := by
  obtain ⟨-, -, hwrappers⟩ := ok_of_bind configured
  cases hwrappers
  obtain ⟨d, hgate, hmasks⟩ := c.exists_gate skips signal tracker
  rw [← made] at hgate hmasks ⊢
  have hremembers := remembers_of_gate runs₀ jobs₀ path decorated hgate
  rw [hmasks] at hremembers
  exact ⟨d, hgate, hremembers⟩

end Remembering

/-- A configuration with a fault barrier that drops overlapping runs. -/
def strict : Config :=
  { Config.standard "info" with timezone := "UTC", overlap := .skip }

/-- A job that is made from it, the first call of which lasts and fails. -/
def guarded : Executor :=
  (bench.addJob (strict.wrappers 0 1) "sweep" .null
    (.ofList [{ sleep := some 50, ending := .fail "late" }])).1

/-- A second run arrives while the first one lasts, and is turned away. -/
def turning : List Incident :=
  [.launch 0, .launch 0] ++ List.replicate 4 (.move (.run 0) 0) ++
    List.replicate 5 (.move (.run 1) 0)

/-- The first run comes to its end. -/
def lasting : List Incident :=
  .clock 50 :: List.replicate 6 (.move (.run 0) 0)

/-- All that has occurred, from the beginning. -/
def since (is : List Incident) : List (Executor × Executor) :=
  (bench, guarded) :: undergone is guarded

theorem path_since (is : List Incident) :
    Path Occurs bench (since is) (terminus guarded (undergone is guarded)) :=
  (Path.single (.befalls (.act (.change (.addJob _ _ _))))).append
    (path_undergone is guarded fun _ _ _ _ h => occurs_of_undergo h)

theorem remembers_outcomes_lasting :
    strict.chain 0 1 = .ok [.recover, .track 1, .skip] ∧ strict.overlap = .skip ∧
      bench.runs = [] ∧ bench.jobs = [] ∧
      ∃ e, Path Occurs bench (since (turning ++ lasting)) e ∧
        outcomes 0 0 (since (turning ++ lasting)) = [(1, .ok), (0, .err (.failed "late"))] ∧
        e.lastOutcome 0 = some (.err (.failed "late")) ∧
        ∃ d, Chain.Gate [.recover, .track 1, .skip] d ∧
          Remembers (strict.recover = true) 0 d (Chain.keeper [.recover, .track 1, .skip])
            (since (turning ++ lasting)) e := by
  let e := terminus guarded (undergone (turning ++ lasting) guarded)
  have hpath : Path Occurs bench (since (turning ++ lasting)) e := path_since _
  have hchain : (e.jobs[0]?).map Job.chain = some [.recover, .track 1, .skip] := by
    decide +kernel
  obtain ⟨job, hjob, hmade⟩ := Option.map_eq_some_iff.1 hchain
  have hconfigured : strict.chain 0 1 = .ok [.recover, .track 1, .skip] := rfl
  exact ⟨hconfigured, rfl, rfl, rfl, e, hpath, by decide +kernel, by decide +kernel,
    remembers_outcomes hconfigured rfl rfl rfl hpath hjob hmade⟩

/-- **A run that is turned away changes what the job shows**: a success, though nothing has been
executed yet. -/
theorem masks_outcome :
    strict.chain 0 1 = .ok [.recover, .track 1, .skip] ∧
      ∃ e, Path Occurs bench (since turning) e ∧
        history 0 2 (since turning) = [(0, .enters), (1, .refused)] ∧
        executions 0 2 0 (since turning) = [] ∧ e.lastOutcome 0 = some .ok :=
  ⟨rfl, _, path_since turning, by decide +kernel, by decide +kernel, by decide +kernel⟩

end Executor
end Timetable
