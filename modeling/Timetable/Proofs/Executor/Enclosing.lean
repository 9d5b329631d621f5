import Timetable.Proofs.Executor.Barrier
import Timetable.Proofs.Executor.Contexts
import Timetable.Proofs.Executor.Laps

/-!
# Spans inside one another

A layer that traces opens a span for what is inside it, below the span of the nearest layer
outside that traces.  Around all attempts of a layer that repeats there is one span, and inside it
there is one for each attempt.  A run that is turned away opens none further inside.

Attempts that begin in the same layer have the same span around them, so the spans that they open
have the same parent, as long as nothing in between traces.  What does gives each attempt a span of
its own, and this one is the parent of all that is further inside.

Main results:

* a layer that traces opens a span exactly when a run goes in (Becomes.opens_of_goesIn,
  Path.length_opened);
* while a run is inside a layer, what is around that layer stays (enclosing_of_inside);
* how the spans of a run are inside one another (spans_nest);
* two attempts may open spans with different parents in one layer (parents_differ).
-/

namespace Timetable

/-- No layer between two depths traces. -/
def Chain.Untraced
    (chain : Chain)
    (lo hi : Nat) :
    Prop :=
  ∀ i, lo ≤ i → i < hi → ∀ tracer, chain[i]? ≠ some (.trace tracer)

namespace Executor

variable {e e' : Executor} {r : RunId} {run run' : Run} {job job' : Job} {signs : List Sign}
  {c d k : Nat} {l l' : List (Executor × Executor)} {origin ctx : Context} {tracer : Tracer}

section Around

variable {chain : Chain} {span : Option SpanRef}

/-- What does not trace leaves the span around as it is. -/
theorem enclosing_of_untraced
    (untraced : chain.Untraced d k)
    (below : d ≤ k)
    (l : List (Executor × Executor)) :
    enclosing chain span r l k = enclosing chain span r l d := by
  induction k, below using Nat.le_induction with
  | base => rfl
  | succ k hk ih =>
      rw [enclosing]
      split
      · exact absurd ‹_› (untraced k hk (Nat.lt_succ_self k) _)
      · exact ih fun i hlo hhi => untraced i hlo (Nat.lt_succ_of_lt hhi)

/-- The span right inside a layer that traces is the last one that it has opened. -/
theorem enclosing_of_trace
    (traces : chain[k]? = some (.trace tracer))
    (l : List (Executor × Executor)) :
    enclosing chain span r l (k + 1) = (opened r k l).getLast? := by
  rw [enclosing, traces]

/-- What is around depends on what has been opened outside. -/
theorem enclosing_congr
    (same : ∀ i < k, opened r i l' = opened r i l) :
    enclosing chain span r l' k = enclosing chain span r l k := by
  induction k with
  | zero => rfl
  | succ k ih =>
      have hrest := ih fun i hi => same i (Nat.lt_succ_of_lt hi)
      rw [enclosing, enclosing, hrest, same k (Nat.lt_succ_self k)]

/-- The run is further inside than a depth before each of the steps. -/
def StaysInside
    (r : RunId)
    (d : Nat)
    (l : List (Executor × Executor)) :
    Prop :=
  ∀ s ∈ l, ∃ run, s.1.runs[r]? = some run ∧ d < run.stack.length

/-- **While a run is inside a layer, it opens nothing around**, so what is around stays. -/
theorem enclosing_of_inside
    (inside : StaysInside r d l')
    (l : List (Executor × Executor)) :
    enclosing chain span r (l ++ l') (d + 1) = enclosing chain span r l (d + 1) := by
  refine enclosing_congr fun i hi => ?_
  have hnone : opened r i l' = [] := by
    refine List.filterMap_eq_nil_iff.2 fun s hs => ?_
    obtain ⟨run, entry, hdepth⟩ := inside s hs
    exact opens?_of_ne entry (by omega)
  rw [opened_append, hnone, List.append_nil]

end Around

section Opened

theorem opened_concat
    (r : RunId)
    (k : Nat)
    (l : List (Executor × Executor))
    (s : Executor × Executor) :
    opened r k (l ++ [s]) = opened r k l ++ (opens? r k s).toList := by
  rw [opened_append]
  cases h : opens? r k s <;> simp [opened, h]

/-- A run that opens a span goes in. -/
theorem goesIn_of_opens
    {s : Executor × Executor}
    (opens : opens? r k s ≠ none) :
    goesIn r k s = true := by
  unfold opens? at opens
  split at opens
  · rename_i run run' hrun hrun'
    have hdepth : run.stack.length = k ∧ run'.stack.length = k + 1 := by
      by_contra h
      exact opens (if_neg h)
    exact (goesIn_of_entry hrun hrun' k).2 hdepth
  · exact absurd rfl opens

/-- **A run that goes into a layer that traces opens a span.** -/
theorem Becomes.opens_of_goesIn
    (h : e.Becomes r run job run')
    (entry : e.runs[r]? = some run)
    (entry' : e'.runs[r]? = some run')
    (traces : job.chain[k]? = some (.trace tracer))
    (into : goesIn r k (e, e') = true) :
    opens? r k (e, e') ≠ none := by
  obtain ⟨rfl, hdepth⟩ := (goesIn_of_entry entry entry' k).1 into
  have hwrapper : ∀ {l : Layer}, job.layers[run.stack.length]? = some l →
      l.wrapper = .trace tracer := by
    intro l layer
    rw [Job.chain_getElem? layer] at traces
    exact Option.some.inj traces
  cases h with
  | stays => omega
  | drops => cases hdepth
  | walks walk =>
      cases walk with
      | @enter ctx ctx' l l' f control layer opens =>
          rw [opens?_of_push entry entry' rfl]
          have htraces := hwrapper layer
          cases opens with
          | trace => simp [Frame.span?]
          | recover | track | retry | skip | delay | tag => cases htraces
      | take control layer | letIn control layer => cases hwrapper layer
      | call | skip | miss | join | wake | proceed | answer | burst | finish | escape =>
          exact absurd hdepth (Nat.lt_succ_self _).ne
      | bar control stack | rescue control stack | overflow control stack | settle control stack
      | pause control stack | again control stack | stop control stack | pass control stack
      | unwind control stack =>
          simp only [stack, List.length_cons] at hdepth
          omega

/-- **A layer that traces opens a span exactly as often as a run goes in.** -/
theorem Path.length_opened
    (path : Path Occurs e l e')
    (orderly : e.Orderly)
    (entry : e.runs[r]? = some run)
    (decorated : e.jobs[run.job]? = some job)
    (traces : job.chain[k]? = some (.trace tracer)) :
    (opened r k l).length = entries r k l := by
  have hnext : ∀ l s run₁ run₂ own, s.1.runs[r]? = some run₁ → s.2.runs[r]? = some run₂ →
      own.chain = job.chain → own.chain.Fits run₁.stack → s.1.Becomes r run₁ own run₂ → True →
      (opened r k l).length = entries r k l →
      (opened r k (l ++ [s])).length = entries r k (l ++ [s]) := by
    intro l s run₁ run₂ own entry₁ entry₂ hchain _ hbecomes _ hlength
    rw [opened_concat, entries_concat, List.length_append, hlength]
    congr 1
    rw [← hchain] at traces
    cases hinto : goesIn r k s with
    | true =>
        obtain ⟨span, hspan⟩ := Option.ne_none_iff_exists'.1
          (hbecomes.opens_of_goesIn entry₁ entry₂ traces hinto)
        rw [hspan]
        rfl
    | false =>
        have hnone : opens? r k s = none := by
          by_contra hopens
          exact Bool.false_ne_true (hinto.symm.trans (goesIn_of_opens hopens))
        rw [hnone]
        rfl
  obtain ⟨_, -, -, hlength⟩ := path.carries (fun l _ => (opened r k l).length = entries r k l)
    orderly entry decorated (fun _ _ => trivial) rfl hnext
  exact hlength

/-- A run that does not go into a layer opens nothing further inside. -/
theorem Path.opened_eq_nil
    (path : Path Occurs e l e')
    (orderly : e.Orderly)
    (entry : e.runs[r]? = some run)
    (decorated : e.jobs[run.job]? = some job)
    (out : run.stack.length ≤ d)
    (never : entries r d l = 0)
    (further : d < k) :
    opened r k l = [] := by
  have hnext : ∀ l s run₁ run₂ own, s.1.runs[r]? = some run₁ → s.2.runs[r]? = some run₂ →
      own.chain = job.chain → own.chain.Fits run₁.stack → s.1.Becomes r run₁ own run₂ → True →
      (entries r d l = 0 → run₁.stack.length ≤ d ∧ opened r k l = []) →
      entries r d (l ++ [s]) = 0 → run₂.stack.length ≤ d ∧ opened r k (l ++ [s]) = [] := by
    intro l s run₁ run₂ own entry₁ entry₂ _ _ hbecomes _ hout hnever
    rw [entries_concat] at hnever
    obtain ⟨hle, hnil⟩ := hout (by omega)
    have hstep : ¬goesIn r d s = true := by
      intro hinto
      rw [hinto] at hnever
      simp at hnever
    rw [goesIn_of_entry entry₁ entry₂] at hstep
    refine ⟨?_, ?_⟩
    · rcases hbecomes.deeper with hsame | ⟨hdepth, -⟩ <;> omega
    · rw [opened_concat, hnil, opens?_of_ne entry₁ (by omega)]
      rfl
  obtain ⟨_, -, -, hopened⟩ := path.carries
    (fun l run => entries r d l = 0 → run.stack.length ≤ d ∧ opened r k l = []) orderly entry
    decorated (fun _ _ => trivial) (fun _ => ⟨out, rfl⟩) hnext
  exact (hopened never).2

end Opened

/-- A run opens a span with a key in a step, in a layer of its chain, below another span. -/
def OpensSpan
    (chain : Chain)
    (key : String)
    (r : RunId)
    (k : Nat)
    (parent : Option SpanRef)
    (s : Executor × Executor) :
    Prop :=
  ∃ tracer, chain[k]? = some (.trace tracer) ∧ opens? r k s = some (s.1.nextSpan tracer) ∧
    s.1.OpensBelow s.2 tracer parent key

/-- What a layer that traces opens on a lap of a run. -/
structure OpensOnce
    (chain : Chain)
    (r : RunId)
    (c k : Nat)
    (lap : List (Executor × Executor))
    (e : Executor) :
    Prop where
  most : (opened r k lap).length ≤ 1
  inside : ∀ run, e.runs[r]? = some run → k < run.stack.length → (opened r k lap).length = 1
  /-- A run that comes back without a span has been turned away on its way. -/
  back : ∀ x, e.departed? r c = some x → (opened r k lap).length = 1 ∨
    opened r k lap = [] ∧ x = .outcome .ok ∧ ∃ i, c ≤ i ∧ i < k ∧ chain[i]? = some .skip

/-- How the spans of a run are inside one another. -/
structure Nests
    (chain : Chain)
    (key : String)
    (origin : Context)
    (r : RunId)
    (l : List (Executor × Executor))
    (e : Executor) :
    Prop where
  /-- Wherever the run stands, its context is that with which it was started, but for the span,
  which is the innermost one. -/
  context : ∀ run ctx, e.runs[r]? = some run → run.control.context? = some ctx →
    ctx = origin.inside run.stack ∧
      ctx.span = enclosing chain origin.span r l run.stack.length
  /-- So is that of its calls. -/
  callback : ∀ run ctx, e.runs[r]? = some run → run.control = .entering ctx →
    run.stack.length = chain.length →
      ∃ e₁ call, e.moves (.run r) = [e₁] ∧ e₁.calls = e.calls ++ [call] ∧ call.job = run.job ∧
        call.cancelled = e.isCancelled origin.token ∧
        call.span = (enclosing chain origin.span r l chain.length).bind SpanRef.recorded?
  /-- A span is opened wherever a run goes into a layer that traces. -/
  opens : ∀ run ctx tracer, e.runs[r]? = some run → run.control = .entering ctx →
    chain[run.stack.length]? = some (.trace tracer) →
      ∃ e₁, e.moves (.run r) = [e₁] ∧
        OpensSpan chain key r run.stack.length
          (enclosing chain origin.span r l run.stack.length) (e, e₁)
  /-- The parent of a span is the one of the nearest layer outside. -/
  nearest : ∀ before s after k, l = before ++ [s] ++ after → opens? r k s ≠ none →
    OpensSpan chain key r k (enclosing chain origin.span r before k) s
  /-- While a run stays inside a layer, all spans that are opened further inside have the parent
  that was there at first, if nothing in between traces. -/
  alike : ∀ before visit after d k s, l = before ++ visit ++ after → StaysInside r d visit →
    d < k → chain.Untraced (d + 1) k → s ∈ visit → opens? r k s ≠ none →
      OpensSpan chain key r k (enclosing chain origin.span r before k) s
  /-- Where a layer in between does, the parent is the one that it has opened on the same lap. -/
  between : ∀ before lap s after c m k tracer, l = before ++ lap ++ [s] ++ after →
    Lap r c before (lap ++ [s]) → c ≤ m → chain.Unrepeated c m →
      chain[m]? = some (.trace tracer) → m < k → chain.Untraced (m + 1) k → opens? r k s ≠ none →
        ∃ span, opened r m lap = [span] ∧ OpensSpan chain key r k (some span) s
  /-- A layer that traces opens a span for each attempt of the nearest layer outside that repeats,
  and one for the whole run if there is none. -/
  once : ∀ before lap c k tracer, l = before ++ lap → Lap r c before lap → c ≤ k →
    chain.Unrepeated c k → chain[k]? = some (.trace tracer) → OpensOnce chain r c k lap e
  /-- A run that is turned away opens no span further inside. -/
  turnedAway : ∀ before lap c d s j, l = before ++ lap → Lap r c before lap → c ≤ d →
    chain.Unrepeated c d → s ∈ lap → s.1.passage? j d s.2 r = some .refused →
      ∀ k, d < k → opened r k lap = []

/-- A run of a job is about to begin, with a context. -/
structure Starts
    (e : Executor)
    (r : RunId)
    (origin : Context)
    (run : Run)
    (job : Job) :
    Prop where
  orderly : e.Orderly
  entry : e.runs[r]? = some run
  decorated : e.jobs[run.job]? = some job
  stack : run.stack = []
  control : run.control = .entering origin

/-- The run after some steps: its job has its chain and its key, and the run threads its context
through. -/
structure Reaches
    (chain : Chain)
    (key : String)
    (origin : Context)
    (r : RunId)
    (l : List (Executor × Executor))
    (e : Executor)
    (run : Run)
    (job : Job) :
    Prop where
  entry : e.runs[r]? = some run
  decorated : e.jobs[run.job]? = some job
  made : job.chain = chain
  called : job.task.key = key
  fits : chain.Fits run.stack
  threads : Threads origin r l run

theorem Starts.reaches
    (starts : e.Starts r origin run job)
    (path : Path Occurs e l e') :
    e'.Orderly ∧ ∃ run' job', Reaches job.chain job.task.key origin r l e' run' job' := by
  have hjob : e'.Orderly ∧ ∃ job', e'.jobs[run.job]? = some job' ∧ job'.chain = job.chain ∧
      job'.task.key = job.task.key := by
    induction path with
    | start => exact ⟨starts.orderly, job, starts.decorated, rfl, rfl⟩
    | next _ last ih =>
        obtain ⟨horderly, job₁, hown₁, hchain₁, hkey₁⟩ := ih
        obtain ⟨job', hown', hchain', hkey'⟩ := last.keeps_job horderly hown₁
        exact ⟨horderly.occurs last, job', hown', hchain'.trans hchain₁, hkey'.trans hkey₁⟩
  obtain ⟨horderly, job', hown, hchain, hkey⟩ := hjob
  obtain ⟨run', entry', hsame, hthreads⟩ :=
    path.threads starts.orderly starts.entry starts.decorated starts.stack starts.control
  rw [← hsame] at hown
  have hfits := horderly.fits run' (List.mem_of_getElem? entry') job' hown
  exact ⟨horderly, run', job', entry', hown, hchain, hkey, hchain ▸ hfits, hthreads⟩

namespace Reaches

variable {chain : Chain} {key : String}

/-- The context of a run has the span around where it stands. -/
theorem span_eq
    (reaches : Reaches chain key origin r l e run job)
    (context : run.control.context? = some ctx) :
    ctx = origin.inside run.stack ∧
      ctx.span = enclosing chain origin.span r l run.stack.length := by
  have hctx := reaches.threads.context ctx context
  exact ⟨hctx, hctx ▸ reaches.threads.frames.span_eq_enclosing reaches.fits⟩

/-- A run that goes into a layer that traces opens a span below the one around. -/
theorem opensSpan
    (reaches : Reaches chain key origin r l e run job)
    (control : run.control = .entering ctx)
    (layer : job.layers[run.stack.length]? = some (.trace tracer)) :
    OpensSpan chain key r run.stack.length (enclosing chain origin.span r l run.stack.length)
      (e, e.enterLayer r run ctx (.trace tracer)) := by
  obtain ⟨rfl, hspan⟩ := reaches.span_eq (show run.control.context? = some ctx by rw [control]; rfl)
  have hkey : e.jobKey run.job = key := by simp [jobKey, reaches.decorated, reaches.called]
  have hbelow := opensBelow_enterLayer e r run origin tracer
  rw [hkey, hspan] at hbelow
  refine ⟨tracer, ?_, ?_, hbelow⟩
  · rw [← reaches.made, Job.chain_getElem? layer]
    rfl
  · exact (moves_of_opening reaches.entry reaches.decorated control layer).2

end Reaches

section Nesting

variable {before lap visit after : List (Executor × Executor)} {s : Executor × Executor} {m : Nat}

/-- **Every span is opened below the one of the nearest layer outside.** -/
theorem Starts.nearest
    (starts : e.Starts r origin run job)
    (path : Path Occurs e (before ++ [s]) e')
    (opens : opens? r k s ≠ none) :
    OpensSpan job.chain job.task.key r k (enclosing job.chain origin.span r before k) s := by
  obtain ⟨hbefore, hstep, -⟩ := path.last_step
  obtain ⟨horderly, run₁, job₁, hreaches⟩ := starts.reaches hbefore
  obtain ⟨span, hspan⟩ := Option.ne_none_iff_exists'.1 opens
  obtain ⟨run₂, job₂, ctx, tracer, entry₂, hown₂, rfl, control, layer, -, hsame⟩ :=
    (hstep.tracing horderly.rooted).opens hspan
  obtain rfl := Option.some.inj (hreaches.entry.symm.trans entry₂)
  obtain rfl := Option.some.inj (hreaches.decorated.symm.trans hown₂)
  have hopens := hreaches.opensSpan control layer
  rwa [← hsame] at hopens

/-- **Spans that are opened while the run stays inside a layer have one parent**, if nothing in
between traces. -/
theorem Starts.alike
    (starts : e.Starts r origin run job)
    (path : Path Occurs e (before ++ visit) e')
    (inside : StaysInside r d visit)
    (further : d < k)
    (untraced : job.chain.Untraced (d + 1) k)
    (onVisit : s ∈ visit)
    (opens : opens? r k s ≠ none) :
    OpensSpan job.chain job.task.key r k (enclosing job.chain origin.span r before k) s := by
  obtain ⟨first, rest, rfl⟩ := List.append_of_mem onVisit
  have hfirst : StaysInside r d first := fun s hs => inside s (List.mem_append_left _ hs)
  rw [List.append_cons, ← List.append_assoc, ← List.append_assoc] at path
  obtain ⟨b, hb, -⟩ := path.split
  have hnearest := starts.nearest hb opens
  rwa [enclosing_of_untraced untraced further, enclosing_of_inside hfirst,
    ← enclosing_of_untraced untraced further] at hnearest

/-- **On a lap a layer that traces opens one span.** -/
theorem Starts.once
    (starts : e.Starts r origin run job)
    (path : Path Occurs e (before ++ lap) e')
    (isLap : Lap r c before lap)
    (within : c ≤ k)
    (unrepeated : job.chain.Unrepeated c k)
    (traces : job.chain[k]? = some (.trace tracer)) :
    OpensOnce job.chain r c k lap e' := by
  obtain ⟨b, run₁, job₁, ctx₁, -, hlap, horderly, entry₁, hown₁, -, hchain, hdepth, hcontrol⟩ :=
    path.lap starts.orderly starts.entry starts.decorated starts.stack starts.control isLap
  rw [← hchain] at unrepeated traces ⊢
  have hinnerly := (List.getElem?_eq_some_iff.1 traces).1
  obtain ⟨run₂, entry₂, -, honce⟩ := hlap.once horderly entry₁ hown₁ hdepth hcontrol unrepeated
    within hinnerly isLap.one
  have hlength := hlap.length_opened horderly entry₁ hown₁ traces
  rw [← hlength] at honce
  refine ⟨?_, fun run hrun hinside => ?_, fun x hx => ?_⟩
  · cases honce with
    | coming _ _ none => exact none.trans_le (Nat.zero_le 1)
    | inside _ one => exact one.le
    | home _ said => rcases said with one | ⟨none, -⟩ <;> omega
  · obtain rfl := Option.some.inj (hrun.symm.trans entry₂)
    cases honce with
    | coming _ coming => exact absurd coming.1 (Nat.not_le.2 hinside)
    | inside _ one => exact one
    | home home => exact absurd home.1 (Nat.not_le.2 hinside)
  · rw [departed?_of_entry entry₂] at hx
    obtain ⟨hout, hx⟩ := Option.ite_none_right_eq_some.1 hx
    cases honce with
    | coming _ coming =>
        rcases coming.2 with ⟨ctx, hentering⟩ | hdoor
        · rw [hentering] at hx
          cases hx
        · unfold Control.door at hdoor
          split at hdoor
          · rename_i hcontrol
            rw [hcontrol] at hx
            cases hx
          · rename_i hcontrol
            rw [hcontrol] at hx
            cases hx
          · exact absurd rfl hdoor
    | inside inside => omega
    | home _ said =>
        refine said.imp_right fun ⟨hnone, hearly⟩ => ⟨List.length_eq_zero_iff.1 hnone, ?_⟩
        rcases hearly hout.ge with hdropped | ⟨hleaving | hreturned, i, hlo, hhi, hskip⟩
        · rw [hdropped] at hx
          cases hx
        · rw [hleaving] at hx
          refine ⟨(Option.some.inj hx).symm, i, hlo, lt_of_le_of_ne hhi ?_, hskip⟩
          rintro rfl
          cases hskip.symm.trans traces
        · rw [hreturned] at hx
          cases hx

/-- **Between two layers that trace, a span is below the one of the same lap.** -/
theorem Starts.between
    (starts : e.Starts r origin run job)
    (path : Path Occurs e (before ++ lap ++ [s]) e')
    (isLap : Lap r c before (lap ++ [s]))
    (within : c ≤ m)
    (unrepeated : job.chain.Unrepeated c m)
    (traces : job.chain[m]? = some (.trace tracer))
    (further : m < k)
    (untraced : job.chain.Untraced (m + 1) k)
    (opens : opens? r k s ≠ none) :
    ∃ span, opened r m lap = [span] ∧ OpensSpan job.chain job.task.key r k (some span) s := by
  obtain ⟨hlap, hstep, -⟩ := path.last_step
  have honce := starts.once hlap
    ⟨isLap.begun, fun s hs => isLap.one s (List.mem_append_left _ hs)⟩ within unrepeated traces
  obtain ⟨horderly, run₁, job₁, hreaches⟩ := starts.reaches hlap
  have hinside : m < run₁.stack.length := by
    by_contra hout
    exact opens (opens?_of_ne hreaches.entry (by omega))
  obtain ⟨span, hspan⟩ := List.length_eq_one_iff.1 (honce.inside run₁ hreaches.entry hinside)
  have hnearest := starts.nearest path opens
  rw [enclosing_of_untraced untraced further, enclosing_of_trace traces, opened_append, hspan,
    List.getLast?_concat] at hnearest
  exact ⟨span, hspan, hnearest⟩

/-- **A run that is turned away opens no span further inside.** -/
theorem Starts.turnedAway
    (starts : e.Starts r origin run job)
    (path : Path Occurs e (before ++ lap) e')
    (isLap : Lap r c before lap)
    (within : c ≤ d)
    (unrepeated : job.chain.Unrepeated c d)
    (onLap : s ∈ lap)
    {j : JobId}
    (refused : s.1.passage? j d s.2 r = some .refused)
    (further : d < k) :
    opened r k lap = [] := by
  obtain ⟨b, run₁, job₁, ctx₁, -, hlap, horderly, entry₁, hown₁, -, hchain, hdepth, hcontrol⟩ :=
    path.lap starts.orderly starts.entry starts.decorated starts.stack starts.control isLap
  rw [← hchain] at unrepeated
  have hnever := hlap.turned_away horderly entry₁ hown₁ hdepth hcontrol unrepeated within isLap.one
    onLap refused
  exact hlap.opened_eq_nil horderly entry₁ hown₁ (hdepth.trans_le within) hnever further

/-- **The spans of a run are inside one another as the layers are.** -/
theorem spans_nest
    {e₀ : Executor}
    {l₀ : List (Executor × Executor)}
    (runs₀ : e₀.runs = [])
    (jobs₀ : e₀.jobs = [])
    (first : Path Occurs e₀ l₀ e)
    (entry : e.runs[r]? = some run)
    (decorated : e.jobs[run.job]? = some job)
    (stack : run.stack = [])
    (control : run.control = .entering origin)
    (path : Path Occurs e l e') :
    Nests job.chain job.task.key origin r l e' := by
  have starts : e.Starts r origin run job :=
    ⟨(first.orderly runs₀ jobs₀).1, entry, decorated, stack, control⟩
  obtain ⟨horderly, run₁, job₁, hreaches⟩ := starts.reaches path
  have hown : ∀ {run' : Run}, e'.runs[r]? = some run' → run' = run₁ := fun h =>
    Option.some.inj (h.symm.trans hreaches.entry)
  constructor
  case context =>
    intro run' ctx hrun hctx
    obtain rfl := hown hrun
    exact hreaches.span_eq hctx
  case callback =>
    intro run' ctx hrun hcontrol hdepth
    obtain rfl := hown hrun
    obtain ⟨hctx, hspan⟩ :=
      hreaches.span_eq (show run'.control.context? = some ctx by rw [hcontrol]; rfl)
    have hinnermost : job₁.layers[run'.stack.length]? = none := by
      rw [List.getElem?_eq_none_iff, hdepth, ← hreaches.made, Job.length_chain]
    obtain ⟨e₁, call, hmoves, hcalls, hjob, hcancelled, hcalled⟩ :=
      moves_of_call hreaches.entry hreaches.decorated hcontrol hinnermost
    rw [hspan, hdepth] at hcalled
    rw [hctx] at hcancelled
    exact ⟨e₁, call, hmoves, hcalls, hjob, hcancelled, hcalled⟩
  case opens =>
    intro run' ctx tracer hrun hcontrol htraces
    obtain rfl := hown hrun
    obtain ⟨layer, hlayer, hwrapper⟩ := Job.exists_layer (hreaches.made.symm ▸ htraces)
    cases layer with
    | trace tracer' =>
        cases hwrapper
        exact ⟨_, (moves_of_opening hreaches.entry hreaches.decorated hcontrol hlayer).1,
          hreaches.opensSpan hcontrol hlayer⟩
    | recover | track | retry | skip | delay | tag => cases hwrapper
  case nearest =>
    rintro before s after k rfl hopens
    obtain ⟨b, hb, -⟩ := path.split
    exact starts.nearest hb hopens
  case alike =>
    rintro before visit after d k s rfl hinside hfurther huntraced hs hopens
    obtain ⟨b, hb, -⟩ := path.split
    exact starts.alike hb hinside hfurther huntraced hs hopens
  case between =>
    rintro before lap s after c m k tracer rfl hlap hwithin hunrepeated htraces hfurther huntraced
      hopens
    obtain ⟨b, hb, -⟩ := path.split
    exact starts.between hb hlap hwithin hunrepeated htraces hfurther huntraced hopens
  case once =>
    rintro before lap c k tracer rfl hlap hwithin hunrepeated htraces
    exact starts.once path hlap hwithin hunrepeated htraces
  case turnedAway =>
    rintro before lap c d s j rfl hlap hwithin hunrepeated hs hrefused k hfurther
    exact starts.turnedAway path hlap hwithin hunrepeated hs hrefused hfurther

end Nesting

/-- A job that is repeated once, with two layers inside that trace.  The first call of its task
fails. -/
def layered : Executor :=
  (bench.addJob [.retry 0 1 shortestRetry, .trace .recording, .trace .recording] "sweep" .null
    (.ofList [{ ending := .fail "early" }, {}])).1

/-- A run of the job has been started. -/
def setOff : Executor :=
  layered.spawn 0 ⟨1, none⟩ none

/-- The run makes an attempt, pauses until the tick, makes another one, and returns. -/
def acrossAttempts : List (Executor × Executor) :=
  let go (n : Nat) := List.replicate n (Incident.move (.run 0) 0)
  undergone (go 9 ++ [.clock 100] ++ go 10) setOff

theorem path_setOff :
    Path Occurs bench [(bench, layered), (layered, setOff)] setOff :=
  (Path.single (.befalls (.act (.change (.addJob _ _ _))))).next
    (.befalls (.act (c := []) (.change (.drift (.launch _ _)))))

theorem path_acrossAttempts :
    Path Occurs setOff acrossAttempts (terminus setOff acrossAttempts) :=
  path_undergone _ _ fun _ _ _ _ h => occurs_of_undergo h

theorem spans_nest_acrossAttempts :
    bench.runs = [] ∧ bench.jobs = [] ∧
      Path Occurs bench [(bench, layered), (layered, setOff)] setOff ∧
      ∃ run job e', setOff.runs[0]? = some run ∧ setOff.jobs[run.job]? = some job ∧
        run.stack = [] ∧ run.control = .entering ⟨1, none⟩ ∧
        Path Occurs setOff acrossAttempts e' ∧
        opened 0 1 acrossAttempts = [.recorded 0, .recorded 2] ∧
        Nests job.chain job.task.key ⟨1, none⟩ 0 acrossAttempts e' :=
  ⟨rfl, rfl, path_setOff, _, _, _, rfl, rfl, rfl, rfl, path_acrossAttempts, by decide +kernel,
    spans_nest rfl rfl path_setOff rfl rfl rfl rfl path_acrossAttempts⟩

/-- **Two attempts may open spans with different parents in one layer**, where another layer in
between traces. -/
theorem parents_differ :
    ∃ e', Path Occurs bench ([(bench, layered), (layered, setOff)] ++ acrossAttempts) e' ∧
      (e'.jobs[0]?).map Job.chain =
        some [.retry 0 1 shortestRetry, .trace .recording, .trace .recording] ∧
      attempts 0 0 acrossAttempts = 2 ∧
      opened 0 2 acrossAttempts = [.recorded 1, .recorded 3] ∧
      e'.spans.map RecordedSpan.parent = [none, some 0, none, some 2] :=
  ⟨_, path_setOff.append path_acrossAttempts, by decide +kernel, by decide +kernel,
    by decide +kernel, by decide +kernel⟩

end Executor
end Timetable
