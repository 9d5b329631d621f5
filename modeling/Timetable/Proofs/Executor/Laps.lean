import Timetable.Proofs.Executor.Repeating

/-!
# Laps

A run sets out at a depth: at the outermost layer when it begins, and right inside a layer that
repeats with every attempt.  From there it comes to the layers further inside and goes back, and
where no layer on the way repeats, it does so once.  So until it sets out anew it goes into each
of these layers at most once; and if it comes back without having been there, it has been turned
away on its way in.

Main results:

* a run on its way back from a depth does not come there again (Path.homeward);
* a run goes in once until it sets out anew (Once.next, Path.once);
* a run that is turned away has not been further inside, and comes there no more
  (Path.turned_away).
-/

namespace Timetable

/-- No layer between two depths repeats. -/
def Chain.Unrepeated
    (chain : Chain)
    (lo hi : Nat) :
    Prop :=
  ∀ i, lo ≤ i → i < hi → ∀ signal limit interval, chain[i]? ≠ some (.retry signal limit interval)

/-- A frame that repeats is none of a layer in between. -/
theorem Chain.Unrepeated.lt_of_retry
    {chain : Chain}
    {lo hi : Nat}
    (unrepeated : chain.Unrepeated lo hi)
    {shutdown : TokenId}
    {ctx : Context}
    {repeated : Nat}
    {due : Option Nat}
    {frames : List Frame}
    (fits : chain.Fits (.retry shutdown ctx repeated due :: frames))
    (below : frames.length < hi) :
    frames.length < lo := by
  obtain ⟨⟨w, hw, hfit⟩, -⟩ := fits
  by_contra hlo
  cases w with
  | retry signal limit interval => exact unrepeated _ (not_lt.1 hlo) below _ _ _ hw
  | recover | track | skip | delay | trace | tag => cases hfit

namespace Run

/-- The run is on its way back from a depth, or waits for another attempt there, unless it has
come further out than it has set out. -/
def Homeward
    (run : Run)
    (c k : Nat) :
    Prop :=
  run.stack.length ≤ k ∧
    (c ≤ run.stack.length → run.control.goes = true ∨ ∃ f, run.control = .pausing f)

/-- The run has come back before it has come to a depth: it has been turned away by a layer that
drops runs, or it has been dropped itself. -/
def Early
    (run : Run)
    (chain : Chain)
    (c k : Nat) :
    Prop :=
  c ≤ run.stack.length → run.control = .dropped ∨
    (run.control = .leaving .ok ∨ run.control = .returned .ok) ∧
      ∃ i, c ≤ i ∧ i ≤ k ∧ chain[i]? = some .skip

theorem station_eq_trying_iff
    {run : Run}
    {d : Nat} :
    run.station d = .trying ↔
      d + 1 < run.stack.length ∨ run.stack.length = d + 1 ∧ run.control.station = .trying := by
  unfold station
  by_cases hinside : d + 1 < run.stack.length
  · simp [hinside]
  · by_cases hdepth : run.stack.length = d + 1
    · simp [hdepth]
    · rw [if_neg hinside, if_neg hdepth]
      split <;> simp [hinside, hdepth]

end Run

namespace Executor

variable {e e' : Executor} {r : RunId} {run run' : Run} {job job' : Job} {signs : List Sign}
  {c d k : Nat} {l l' : List (Executor × Executor)}

section Observations

/-- A run goes into the layer at a depth in a step. -/
def goesIn
    (r : RunId)
    (k : Nat)
    (s : Executor × Executor) :
    Bool :=
  match s.1.runs[r]?, s.2.runs[r]? with
  | some run, some run' => run.stack.length == k && run'.stack.length == k + 1
  | _, _ => false

/-- How often a run goes into the layer at a depth on a path. -/
def entries
    (r : RunId)
    (k : Nat)
    (l : List (Executor × Executor)) :
    Nat :=
  l.countP (goesIn r k)

/-- The layer outside of a depth begins an attempt in a step. -/
def setsOut
    (r : RunId) :
    Nat → Executor × Executor → Bool
  | 0, _ => false
  | d + 1, s => begins r d s

theorem goesIn_of_entry
    (entry : e.runs[r]? = some run)
    (entry' : e'.runs[r]? = some run')
    (k : Nat) :
    goesIn r k (e, e') = true ↔ run.stack.length = k ∧ run'.stack.length = k + 1 := by
  simp [goesIn, entry, entry']

/-- A run that is no further inside afterwards goes in nowhere. -/
theorem goesIn_of_le
    (entry : e.runs[r]? = some run)
    (entry' : e'.runs[r]? = some run')
    (outside : run'.stack.length ≤ k ∨ run.stack.length ≠ k) :
    goesIn r k (e, e') = false := by
  rw [Bool.eq_false_iff, Ne, goesIn_of_entry entry entry']
  omega

theorem entries_append
    (r : RunId)
    (k : Nat)
    (l l' : List (Executor × Executor)) :
    entries r k (l ++ l') = entries r k l + entries r k l' :=
  List.countP_append

theorem entries_concat
    (r : RunId)
    (k : Nat)
    (l : List (Executor × Executor))
    (s : Executor × Executor) :
    entries r k (l ++ [s]) = entries r k l + (goesIn r k s).toNat := by
  rw [entries_append]
  cases h : goesIn r k s <;> simp [entries, h]

/-- An attempt begins when the run has not been trying, and is. -/
theorem setsOut_succ_iff
    (entry : e.runs[r]? = some run)
    (entry' : e'.runs[r]? = some run')
    (d : Nat) :
    setsOut r (d + 1) (e, e') = true ↔
      run.station d ≠ .trying ∧ run'.station d = .trying := by
  simp [setsOut, begins, station_of_entry entry, station_of_entry entry']

end Observations

/-- A lap of a run at a depth: the steps since it has set out there, for as long as it does not do
so anew.  At the outermost layer it sets out as it begins. -/
structure Lap
    (r : RunId)
    (c : Nat)
    (before lap : List (Executor × Executor)) :
    Prop where
  begun : c = 0 ∧ before = [] ∨ ∃ s, before.getLast? = some s ∧ setsOut r c s = true
  one : ∀ s ∈ lap, setsOut r c s = false

section Walks

/-- A run that comes further inside enters the next layer, or its task. -/
theorem Walk.deeper
    (h : e.Walk r run job run' job' signs) :
    run'.stack.length ≤ run.stack.length ∨
      run'.stack.length = run.stack.length + 1 ∧ run.control.station = .trying ∧
        ∃ ctx, run'.control = .entering ctx := by
  cases h with
  | enter control | take control | letIn control => exact Or.inr ⟨rfl, by rw [control]; rfl, _, rfl⟩
  | skip | miss | join | call | wake | proceed | answer | burst | finish | escape =>
      exact Or.inl le_rfl
  | bar control stack | rescue control stack | overflow control stack | settle control stack
  | pause control stack | again control stack | stop control stack | pass control stack
  | unwind control stack => exact Or.inl (by simp [stack])

/-- A run that is not busy and begins to try enters. -/
theorem Walk.tries_again
    (h : e.Walk r run job run' job' signs)
    (waits : run.control.station ≠ .trying)
    (inside : 0 < run.stack.length)
    (tries : run'.control.station = .trying) :
    ∃ ctx, run'.control = .entering ctx := by
  cases h with
  | again => exact ⟨_, rfl⟩
  | enter control | skip control | miss control | join control | take control | letIn control
  | call control | wake control | proceed control | answer control | burst control =>
      exact absurd (by rw [control]; rfl) waits
  | bar | rescue | overflow | settle | pause | stop | pass | unwind => cases tries
  | finish control stack | escape control stack => simp [stack] at inside

theorem Becomes.deeper
    (h : e.Becomes r run job run') :
    run'.stack.length ≤ run.stack.length ∨
      run'.stack.length = run.stack.length + 1 ∧ run.control.station = .trying ∧
        ∃ ctx, run'.control = .entering ctx := by
  cases h with
  | stays => exact Or.inl le_rfl
  | drops => exact Or.inl (Nat.zero_le _)
  | walks walk => exact walk.deeper

/-- A run that is further out than where it has set out stays so until it sets out anew. -/
theorem Becomes.stays_out
    (h : e.Becomes r run job run')
    (entry : e.runs[r]? = some run)
    (entry' : e'.runs[r]? = some run')
    (one : setsOut r c (e, e') = false)
    (out : run.stack.length < c) :
    run'.stack.length < c := by
  rcases h.deeper with hle | ⟨hdepth, -, ctx, hcontrol⟩
  · exact hle.trans_lt out
  · by_contra hc
    obtain rfl : c = run.stack.length + 1 := by omega
    rw [Bool.eq_false_iff] at one
    refine one ((setsOut_succ_iff entry entry' _).2 ⟨?_, ?_⟩)
    · rw [Ne, Run.station_eq_trying_iff]
      omega
    · exact Run.station_eq_trying_iff.2 (Or.inr ⟨hdepth, by rw [hcontrol]; rfl⟩)

/-- **A run on its way back stays on it until it sets out anew.** -/
theorem Walk.homeward
    (h : e.Walk r run job run' job' signs)
    (entry : e.runs[r]? = some run)
    (entry' : e'.runs[r]? = some run')
    (fits : job.chain.Fits run.stack)
    (unrepeated : job.chain.Unrepeated c k)
    (one : setsOut r c (e, e') = false)
    (near : run.stack.length ≤ k)
    (back : run.control.goes = true ∨ ∃ f, run.control = .pausing f) :
    run'.Homeward c k := by
  have hno : ∀ {b : Control}, run.control = b → b.goes = false → (∀ f, b ≠ .pausing f) → False := by
    rintro b rfl hgoes hpausing
    rcases back with h | ⟨f, hf⟩
    · exact Bool.false_ne_true (hgoes.symm.trans h)
    · exact hpausing f hf
  have hpop : ∀ {f : Frame} {frames : List Frame}, run.stack = f :: frames →
      frames.length < k := by
    intro f frames stack
    rw [stack] at near
    exact near
  cases h with
  | enter control | skip control | miss control | join control | take control | letIn control
  | call control | wake control | proceed control | answer control | burst control =>
      exact (hno control rfl (by simp)).elim
  | bar control stack | rescue control stack | overflow control stack | settle control stack
  | stop control stack | pass control stack | unwind control stack =>
      exact ⟨(hpop stack).le, fun _ => Or.inl rfl⟩
  | pause control stack => exact ⟨hpop stack, fun _ => Or.inr ⟨_, rfl⟩⟩
  | @again f shutdown ctx repeated due frames control stack =>
      -- The layer that begins the attempt is the one right outside of where the run has set out.
      have hlo : frames.length < c :=
        unrepeated.lt_of_retry (by rw [stack] at fits; exact fits) (hpop stack)
      refine ⟨hpop stack, fun (hc : c ≤ frames.length + 1) => ?_⟩
      obtain rfl : c = frames.length + 1 := by omega
      rw [Bool.eq_false_iff] at one
      refine absurd ((setsOut_succ_iff entry entry' _).2 ⟨?_, ?_⟩) one
      · rw [Run.station_of_top stack rfl, control]
        simp [Control.station]
      · exact Run.station_of_top rfl rfl
  | finish | escape => exact ⟨near, fun _ => Or.inl rfl⟩

theorem Becomes.homeward
    (h : e.Becomes r run job run')
    (entry : e.runs[r]? = some run)
    (entry' : e'.runs[r]? = some run')
    (fits : job.chain.Fits run.stack)
    (unrepeated : job.chain.Unrepeated c k)
    (one : setsOut r c (e, e') = false)
    (within : c ≤ k)
    (home : run.Homeward c k) :
    run'.Homeward c k := by
  rcases Nat.lt_or_ge run.stack.length c with hout | hc
  · have hout' := h.stays_out entry entry' one hout
    exact ⟨by omega, fun hc => by omega⟩
  · cases h with
    | stays => exact home
    | drops => exact ⟨Nat.zero_le _, fun _ => Or.inl rfl⟩
    | walks walk => exact walk.homeward entry entry' fits unrepeated one home.1 (home.2 hc)

/-- A run that has come back early still has when it goes on. -/
theorem Walk.early
    (h : e.Walk r run job run' job' signs)
    (fits : job.chain.Fits run.stack)
    (unrepeated : job.chain.Unrepeated c k)
    (near : run.stack.length ≤ k)
    (inside : c ≤ run.stack.length)
    (early : run.Early job.chain c k) :
    run'.Early job.chain c k := by
  have hlasts := h.lasts
  rcases early inside with hdropped | ⟨hback, hskip⟩
  · rw [Run.isOver, hdropped] at hlasts
    cases hlasts
  · have hno : ∀ {b : Control}, run.control = b → b ≠ .leaving .ok → b ≠ .returned .ok → False := by
      rintro b rfl hleaving hreturned
      exact hback.elim hleaving hreturned
    have hok : ∀ {o : Outcome}, run.control = .leaving o → o = .ok := by
      intro o control
      by_contra ho
      exact hno control (by simpa using ho) (by simp)
    have hretry : ∀ {shutdown ctx repeated due frames},
        run.stack = .retry shutdown ctx repeated due :: frames → frames.length < c := by
      intro shutdown ctx repeated due frames stack
      rw [stack] at fits near
      exact unrepeated.lt_of_retry fits near
    cases h with
    | bar control | pass control =>
        obtain rfl := hok control
        exact fun _ => Or.inr ⟨Or.inl rfl, hskip⟩
    | finish control =>
        obtain rfl := hok control
        exact fun _ => Or.inr ⟨Or.inr rfl, hskip⟩
    | overflow control stack | settle control stack =>
        exact fun hc => absurd (hretry stack) (Nat.not_lt.2 hc)
    | enter control | skip control | miss control | join control | take control | letIn control
    | call control | wake control | proceed control | answer control | burst control
    | rescue control | pause control | again control | stop control | unwind control
    | escape control =>
        exact (hno control (by simp) (by simp)).elim

end Walks

/-- Where a run stands since it has set out at a depth, and how often it has gone into a layer
further inside. -/
inductive Once
    (chain : Chain)
    (c k n : Nat)
    (run : Run) :
    Prop
  | coming
      (setOut : c ≤ run.stack.length)
      (coming : run.Coming k)
      (none : n = 0)
  | inside
      (inside : k < run.stack.length)
      (one : n = 1)
  | home
      (home : run.Homeward c k)
      (said : n = 1 ∨ n = 0 ∧ run.Early chain c k)

section Counting

variable {n : Nat}

/-- A run that enters stands in front of the layers that it has not passed. -/
theorem Once.eq_zero_of_entering
    {chain : Chain}
    {ctx : Context}
    (once : Once chain c k n run)
    (setOut : c ≤ run.stack.length)
    (near : run.stack.length ≤ k)
    (control : run.control = .entering ctx) :
    n = 0 := by
  cases once with
  | coming _ _ none => exact none
  | inside inside => exact absurd near (Nat.not_le.2 inside)
  | home home =>
      rcases home.2 setOut with hgoes | ⟨f, hf⟩
      · rw [control] at hgoes
        cases hgoes
      · cases control.symm.trans hf

/-- A run on its way to a layer comes nearer, goes in, or is turned away. -/
theorem Walk.nearer
    (h : e.Walk r run job run' job' signs)
    (innerly : k < job.chain.length)
    (setOut : c ≤ run.stack.length)
    (coming : run.Coming k) :
    (run'.stack.length ≤ k ∧ c ≤ run'.stack.length ∧ run'.Coming k) ∨
      (run.stack.length = k ∧ run'.stack.length = k + 1) ∨
      (run'.Homeward c k ∧ run'.Early job.chain c k) := by
  have hle := coming.1
  rw [Job.length_chain] at innerly
  rcases h.inwards coming innerly with
    ⟨f, ctx, rfl, -⟩ | ⟨c', lock, rfl, hdoor, -⟩ | ⟨rfl, -, layer⟩
  · rcases hle.eq_or_lt with hk | hlt
    · exact Or.inr (Or.inl ⟨hk, by rw [← hk]; rfl⟩)
    · exact Or.inl ⟨hlt, Nat.le_succ_of_le setOut, hlt, Or.inl ⟨ctx, rfl⟩⟩
  · exact Or.inl ⟨hle, setOut, hle, Or.inr hdoor⟩
  · have hskip : job.chain[run.stack.length]? = some .skip := Job.chain_getElem? layer
    exact Or.inr (Or.inr ⟨⟨hle, fun _ => Or.inl rfl⟩,
      fun _ => Or.inr ⟨Or.inl rfl, _, setOut, hle, hskip⟩⟩)

/-- A run that has gone in goes on there, or comes back. -/
theorem Walk.back
    (h : e.Walk r run job run' job' signs)
    (inside : k < run.stack.length) :
    k < run'.stack.length ∨ run'.stack.length = k ∧ run'.control.goes = true := by
  have hpop : ∀ {f : Frame} {frames : List Frame}, run.stack = f :: frames →
      k < frames.length ∨ frames.length = k := by
    intro f frames stack
    rw [stack, List.length_cons] at inside
    omega
  cases h with
  | enter | take | letIn => exact Or.inl (Nat.lt_succ_of_lt inside)
  | skip | miss | join | call | wake | proceed | answer | burst => exact Or.inl inside
  | pause control stack | again control stack =>
      rw [stack] at inside
      exact Or.inl inside
  | bar control stack | rescue control stack | overflow control stack | settle control stack
  | stop control stack | pass control stack | unwind control stack =>
      exact (hpop stack).imp_right fun h => ⟨h, rfl⟩
  | finish control stack | escape control stack => simp [stack] at inside

/-- **Until a run sets out anew it goes into a layer at most once.** -/
theorem Once.next
    (once : Once job.chain c k n run)
    (h : e.Becomes r run job run')
    (entry : e.runs[r]? = some run)
    (entry' : e'.runs[r]? = some run')
    (fits : job.chain.Fits run.stack)
    (unrepeated : job.chain.Unrepeated c k)
    (within : c ≤ k)
    (innerly : k < job.chain.length)
    (one : setsOut r c (e, e') = false) :
    Once job.chain c k (n + (goesIn r k (e, e')).toNat) run' := by
  have hstill : run'.stack.length ≤ k ∨ run.stack.length ≠ k → ∀ {m : Nat},
      Once job.chain c k m run' → m = n →
      Once job.chain c k (n + (goesIn r k (e, e')).toNat) run' := by
    rintro houtside m hm rfl
    rw [goesIn_of_le entry entry' houtside]
    exact hm
  have hdropped : run' = { run with stack := [], control := .dropped } → ∀ {m : Nat},
      m = 0 ∨ m = 1 → m = n → Once job.chain c k (n + (goesIn r k (e, e')).toNat) run' := by
    rintro rfl m hm rfl
    refine hstill (Or.inl (Nat.zero_le _)) (.home ⟨Nat.zero_le _, fun _ => Or.inl rfl⟩ ?_) rfl
    exact hm.symm.imp_right fun h => ⟨h, fun _ => Or.inl rfl⟩
  cases once with
  | coming setOut coming none =>
      cases h with
      | stays => exact hstill (Or.inl coming.1) (.coming setOut coming none) rfl
      | drops => exact hdropped rfl (Or.inl none) rfl
      | walks walk =>
          rcases walk.nearer innerly setOut coming with
            ⟨hle, hc, hcoming⟩ | ⟨hk, hk'⟩ | ⟨hhome, hearly⟩
          · exact hstill (Or.inl hle) (.coming hc hcoming none) rfl
          · rw [(goesIn_of_entry entry entry' k).2 ⟨hk, hk'⟩, none]
            exact .inside (by omega) rfl
          · exact hstill (Or.inl hhome.1) (.home hhome (Or.inr ⟨none, hearly⟩)) rfl
  | inside inside one =>
      cases h with
      | stays => exact hstill (Or.inr inside.ne') (.inside inside one) rfl
      | drops => exact hdropped rfl (Or.inr one) rfl
      | walks walk =>
          refine hstill (Or.inr inside.ne') ?_ rfl
          rcases walk.back inside with hinside | ⟨hk, hgoes⟩
          · exact .inside hinside one
          · exact .home ⟨hk.le, fun _ => Or.inl hgoes⟩ (Or.inl one)
  | home home said =>
      have hhome := h.homeward entry entry' fits unrepeated one within home
      refine hstill (Or.inl hhome.1) (.home hhome (said.imp_right fun ⟨hn, hearly⟩ => ⟨hn, ?_⟩)) rfl
      rcases Nat.lt_or_ge run.stack.length c with hout | hc
      · exact fun hc => absurd (h.stays_out entry entry' one hout) (Nat.not_lt.2 hc)
      · cases h with
        | stays => exact hearly
        | drops => exact fun _ => Or.inl rfl
        | walks walk => exact walk.early fits unrepeated home.1 hc hearly

end Counting

section Laps

variable {ctx : Context}

/-- **From where it has set out a run goes into each layer at most once**, until it sets out
anew. -/
theorem Path.once
    (path : Path Occurs e l e')
    (orderly : e.Orderly)
    (entry : e.runs[r]? = some run)
    (decorated : e.jobs[run.job]? = some job)
    (depth : run.stack.length = c)
    (control : run.control = .entering ctx)
    (unrepeated : job.chain.Unrepeated c k)
    (within : c ≤ k)
    (innerly : k < job.chain.length)
    (one : ∀ s ∈ l, setsOut r c s = false) :
    ∃ run', e'.runs[r]? = some run' ∧ run'.job = run.job ∧
      Once job.chain c k (entries r k l) run' := by
  refine path.carries (fun l => Once job.chain c k (entries r k l)) orderly entry decorated one
    (.coming depth.ge ⟨depth.trans_le within, Or.inl ⟨ctx, control⟩⟩ rfl) ?_
  intro l s run₁ run₂ own entry₁ entry₂ hchain fits hbecomes hone honce
  rw [← hchain] at honce unrepeated innerly ⊢
  rw [entries_concat]
  exact honce.next hbecomes entry₁ entry₂ fits unrepeated within innerly hone

/-- **A run on its way back from a depth does not come there again**, until it sets out anew. -/
theorem Path.homeward
    (path : Path Occurs e l e')
    (orderly : e.Orderly)
    (entry : e.runs[r]? = some run)
    (decorated : e.jobs[run.job]? = some job)
    (home : run.Homeward c k)
    (unrepeated : job.chain.Unrepeated c k)
    (within : c ≤ k)
    (one : ∀ s ∈ l, setsOut r c s = false) :
    ∃ run', e'.runs[r]? = some run' ∧ run'.job = run.job ∧
      run'.Homeward c k ∧ entries r k l = 0 := by
  refine path.carries (fun l run => run.Homeward c k ∧ entries r k l = 0) orderly entry decorated
    one ⟨home, rfl⟩ ?_
  intro l s run₁ run₂ own entry₁ entry₂ hchain fits hbecomes hone ⟨hhome, hnone⟩
  rw [← hchain] at unrepeated
  have hhome' := hbecomes.homeward entry₁ entry₂ fits unrepeated hone within hhome
  refine ⟨hhome', ?_⟩
  rw [entries_concat, hnone, goesIn_of_le entry₁ entry₂ (Or.inl hhome'.1)]
  rfl

/-- **A run that sets out enters right inside the layer.** -/
theorem Becomes.sets_out
    (h : e.Becomes r run job run')
    (entry : e.runs[r]? = some run)
    (entry' : e'.runs[r]? = some run')
    (begun : setsOut r c (e, e') = true) :
    run'.stack.length = c ∧ ∃ ctx, run'.control = .entering ctx := by
  cases c with
  | zero => cases begun
  | succ d =>
      obtain ⟨hnot, htrying⟩ := (setsOut_succ_iff entry entry' d).1 begun
      rw [Ne, Run.station_eq_trying_iff] at hnot
      rw [Run.station_eq_trying_iff] at htrying
      obtain ⟨hout, hbusy⟩ := not_or.1 hnot
      have hin : d + 1 ≤ run'.stack.length := htrying.elim Nat.le_of_lt fun h => h.1.ge
      rcases h.deeper with hle | ⟨hdepth, htries, hentering⟩
      · obtain ⟨hdepth, hdepth'⟩ : run.stack.length = d + 1 ∧ run'.stack.length = d + 1 := by omega
        have htries := (htrying.resolve_left (by omega)).2
        cases h with
        | stays => exact absurd ⟨hdepth, htries⟩ hbusy
        | drops => cases hdepth'
        | walks walk =>
            exact ⟨hdepth', walk.tries_again (fun h => hbusy ⟨hdepth, h⟩) (by omega) htries⟩
      · have hnear : run.stack.length ≠ d + 1 := fun h => hbusy ⟨h, htries⟩
        exact ⟨by omega, hentering⟩

/-- A run that has just set out enters at the depth of its lap. -/
theorem Path.lap
    {before lap : List (Executor × Executor)}
    (path : Path Occurs e (before ++ lap) e')
    (orderly : e.Orderly)
    (entry : e.runs[r]? = some run)
    (decorated : e.jobs[run.job]? = some job)
    (stack : run.stack = [])
    (control : run.control = .entering ctx)
    (isLap : Lap r c before lap) :
    ∃ b run' job' ctx', Path Occurs e before b ∧ Path Occurs b lap e' ∧ b.Orderly ∧
      b.runs[r]? = some run' ∧ b.jobs[run'.job]? = some job' ∧ run'.job = run.job ∧
      job'.chain = job.chain ∧ run'.stack.length = c ∧ run'.control = .entering ctx' := by
  obtain ⟨b, hbefore, hlap⟩ := path.split
  rcases isLap.begun with ⟨rfl, rfl⟩ | ⟨s, hs, hbegun⟩
  · rcases hbefore.reached with rfl | ⟨s, hs, -⟩
    · exact ⟨b, run, job, ctx, hbefore, hlap, orderly, entry, decorated, rfl, rfl,
        by rw [stack]; rfl, control⟩
    · cases hs
  · obtain ⟨b₀, rfl⟩ := List.getLast?_eq_some_iff.1 hs
    obtain ⟨hb₀, hstep, rfl⟩ := hbefore.last_step
    obtain ⟨horderly₀, run₀, entry₀, hjob₀⟩ := hb₀.keeps_run orderly entry
    obtain ⟨-, job₀, hown₀, hchain₀⟩ := hb₀.keeps_chain orderly decorated
    rw [← hjob₀] at hown₀
    obtain ⟨run₁, entry₁, hbecomes⟩ := hstep.becomes horderly₀ entry₀ hown₀
    obtain ⟨horderly₁, run₂, entry₂, hjob₂⟩ := hbefore.keeps_run orderly entry
    obtain ⟨-, job₂, hown₂, hchain₂⟩ := hbefore.keeps_chain orderly decorated
    obtain rfl := Option.some.inj (entry₁.symm.trans entry₂)
    rw [← hjob₂] at hown₂
    obtain ⟨hdepth, ctx', hcontrol⟩ := hbecomes.sets_out entry₀ entry₁ hbegun
    exact ⟨s.2, run₁, job₂, ctx', hbefore, hlap, horderly₁, entry₁, hown₂, hjob₂, hchain₂, hdepth,
      hcontrol⟩

/-- **A run that is turned away has not gone in, and does not go in any more**, until it sets out
anew. -/
theorem Path.turned_away
    (path : Path Occurs e l e')
    (orderly : e.Orderly)
    (entry : e.runs[r]? = some run)
    (decorated : e.jobs[run.job]? = some job)
    (depth : run.stack.length = c)
    (control : run.control = .entering ctx)
    (unrepeated : job.chain.Unrepeated c k)
    (within : c ≤ k)
    (one : ∀ s ∈ l, setsOut r c s = false)
    {s : Executor × Executor}
    {j : JobId}
    (onWay : s ∈ l)
    (refused : s.1.passage? j k s.2 r = some .refused) :
    entries r k l = 0 := by
  obtain ⟨before, after, rfl, hbefore, hstep, hafter⟩ := path.of_mem onWay
  obtain ⟨horderly₁, job₁, hown₁, hchain₁⟩ := hbefore.keeps_chain orderly decorated
  obtain ⟨-, run₁, entry₁, hjob₁⟩ := hbefore.keeps_run orderly entry
  rw [← hjob₁] at hown₁
  obtain ⟨run₂, entry₂, hbecomes⟩ := hstep.becomes horderly₁ entry₁ hown₁
  have hrefused : run₁.passage? run₂ k = some .refused := by
    simp only [passage?, entry₁, entry₂] at refused
    exact (Option.ite_none_right_eq_some.1 refused).2
  obtain ⟨harrives, hreturns⟩ := (Run.place_of_passage? hrefused).2.2 rfl
  have hnear : run₁.stack.length = k ∧ ∃ ctx, run₁.control = .entering ctx := by
    unfold Run.arrivesAt at harrives
    split at harrives
    · exact ⟨beq_iff_eq.1 harrives, _, ‹_›⟩
    · cases harrives
  obtain ⟨hdepth, ctx₁, hcontrol₁⟩ := hnear
  obtain ⟨hskip, rfl⟩ : job₁.layers[k]? = some (.skip true) ∧
      run₂ = { run₁ with control := .leaving .ok } := by
    cases hbecomes with
    | stays => simp [hcontrol₁] at hreturns
    | drops => cases hreturns
    | walks walk => exact (walk.refused harrives hreturns).imp_right And.left
  have hone : ∀ s' ∈ before ++ [s] ++ after, setsOut r c s' = false := one
  simp only [List.mem_append] at hone
  have hinnerly : k < job.chain.length := by
    rw [← hchain₁, Job.length_chain]
    exact (List.getElem?_eq_some_iff.1 hskip).1
  obtain ⟨run₁', entry₁', -, honce⟩ := hbefore.once orderly entry decorated depth control unrepeated
    within hinnerly fun s' hs' => hone s' (Or.inl (Or.inl hs'))
  obtain rfl := Option.some.inj (entry₁.symm.trans entry₁')
  have hnone := honce.eq_zero_of_entering (by omega) hdepth.le hcontrol₁
  obtain ⟨horderly₂, job₂, hown₂, hchain₂⟩ :=
    (hbefore.append (.single hstep)).keeps_chain orderly decorated
  rw [← hjob₁] at hown₂
  rw [← hchain₂] at unrepeated
  obtain ⟨-, -, -, -, hnone'⟩ := hafter.homeward horderly₂ entry₂ hown₂
    ⟨hdepth.le, fun _ => Or.inl rfl⟩ unrepeated within fun s' hs' => hone s' (Or.inr hs')
  rw [entries_append, entries_concat, hnone, hnone', goesIn_of_le entry₁ entry₂ (Or.inl hdepth.le)]
  rfl

end Laps

end Executor
end Timetable
