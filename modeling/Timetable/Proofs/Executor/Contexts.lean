import Timetable.Proofs.Executor.Spans

/-!
# The contexts of a run

A run carries the context with which it was started inwards, and every layer that traces puts the
span that it opens into the context of what is inside it.  A layer that repeats keeps the context
that it was given, and begins every attempt with it.  So wherever a run stands, its context has
the token of the run, and the span of the nearest layer around it that traces; and that span is
the last one that this layer has opened.

Main results:

* the context of a run is that with which it was started, inside the frames on its stack
  (Path.threads);
* a span is opened exactly when a run goes into a layer that traces, below the span of its
  context (Occurs.opens, moves_of_opening);
* the span of the context is the last one that the nearest layer around has opened
  (Threads.span_eq_enclosing).
-/

namespace Timetable

/-- The span of a frame. -/
def Frame.span? : Frame → Option SpanRef
  | trace span => some span
  | _ => none

/-- The context of a run on its way inwards, and inside its call. -/
def Control.context? : Control → Option Context
  | entering ctx => some ctx
  | joining ctx => some ctx
  | queued ctx => some ctx
  | asleep _ _ _ ctx => some ctx
  | held _ _ ctx => some ctx
  | _ => none

/-- The context inside frames: the span is that of the innermost frame that has one. -/
def Context.inside
    (origin : Context)
    (frames : List Frame) :
    Context :=
  { origin with span := (frames.findSome? Frame.span?).or origin.span }

/-- A frame without a span leaves the context as it is. -/
theorem Context.inside_cons
    (origin : Context)
    {f : Frame}
    (plain : f.span? = none)
    (frames : List Frame) :
    origin.inside (f :: frames) = origin.inside frames := by
  simp [Context.inside, plain]

theorem Context.inside_trace
    (origin : Context)
    (span : SpanRef)
    (frames : List Frame) :
    origin.inside (.trace span :: frames) = { origin with span := some span } := by
  simp [Context.inside, List.findSome?_cons, Frame.span?]

namespace Executor

variable {e e' : Executor} {r : RunId} {run run' : Run} {job job' : Job} {signs : List Sign}
  {k : Nat} {l l' : List (Executor × Executor)}

section Observations

/-- The span that a run opens as it goes into the layer at a depth in a step. -/
def opens?
    (r : RunId)
    (k : Nat)
    (s : Executor × Executor) :
    Option SpanRef :=
  match s.1.runs[r]?, s.2.runs[r]? with
  | some run, some run' =>
      if run.stack.length = k ∧ run'.stack.length = k + 1 then
        run'.stack.head?.bind Frame.span?
      else none
  | _, _ => none

/-- The spans that a run opens in the layer at a depth on a path, in order. -/
def opened
    (r : RunId)
    (k : Nat)
    (l : List (Executor × Executor)) :
    List SpanRef :=
  l.filterMap (opens? r k)

/-- The span around what is at a depth: the last one that the nearest layer outside has opened of
those that trace, or that of the run. -/
def enclosing
    (chain : Chain)
    (origin : Option SpanRef)
    (r : RunId)
    (l : List (Executor × Executor)) :
    Nat → Option SpanRef
  | 0 => origin
  | k + 1 =>
      match chain[k]? with
      | some (.trace _) => (opened r k l).getLast?
      | _ => enclosing chain origin r l k

theorem opened_append
    (r : RunId)
    (k : Nat)
    (l l' : List (Executor × Executor)) :
    opened r k (l ++ l') = opened r k l ++ opened r k l' :=
  List.filterMap_append

theorem opens?_of_entry
    (entry : e.runs[r]? = some run)
    (entry' : e'.runs[r]? = some run')
    (k : Nat) :
    opens? r k (e, e') =
      if run.stack.length = k ∧ run'.stack.length = k + 1 then run'.stack.head?.bind Frame.span?
      else none := by
  simp [opens?, entry, entry']

/-- A run opens a span only in the layer to which it has come. -/
theorem opens?_of_ne
    (entry : e.runs[r]? = some run)
    (elsewhere : run.stack.length ≠ k) :
    opens? r k (e, e') = none := by
  unfold opens?
  rw [entry]
  split
  · rename_i hrun _
    obtain rfl := Option.some.inj hrun
    exact if_neg fun h => elsewhere h.1
  · rfl

/-- What has been opened outside of where a run stands is opened no more in a step. -/
theorem opened_concat_of_ne
    (entry : e.runs[r]? = some run)
    (elsewhere : run.stack.length ≠ k)
    (l : List (Executor × Executor)) :
    opened r k (l ++ [(e, e')]) = opened r k l := by
  rw [opened_append]
  simp [opened, opens?_of_ne entry elsewhere]

end Observations

/-- Each frame that traces has the last span that its layer has opened, and each one that repeats
has the context of what is outside it. -/
def Recalls
    (origin : Context)
    (r : RunId)
    (l : List (Executor × Executor)) :
    List Frame → Prop
  | [] => True
  | f :: frames =>
      (∀ span, f = .trace span → (opened r frames.length l).getLast? = some span) ∧
        (∀ shutdown ctx repeated due, f = .retry shutdown ctx repeated due →
          ctx = origin.inside frames) ∧
        Recalls origin r l frames

/-- A run that was started with a context has this context everywhere, inside the frames there. -/
structure Threads
    (origin : Context)
    (r : RunId)
    (l : List (Executor × Executor))
    (run : Run) :
    Prop where
  context : ∀ ctx, run.control.context? = some ctx → ctx = origin.inside run.stack
  frames : Recalls origin r l run.stack

section Threading

variable {origin : Context} {frames : List Frame}

theorem Recalls.congr
    (recalls : Recalls origin r l frames)
    (same : ∀ k < frames.length, opened r k l' = opened r k l) :
    Recalls origin r l' frames := by
  induction frames with
  | nil => trivial
  | cons f frames ih =>
      obtain ⟨hspan, hctx, hframes⟩ := recalls
      refine ⟨fun span hf => ?_, hctx, ih hframes fun k hk => same k (Nat.lt_succ_of_lt hk)⟩
      rw [same frames.length (Nat.lt_succ_self _)]
      exact hspan span hf

/-- The frames on a stack recall the same after a step. -/
theorem Recalls.next
    (recalls : Recalls origin r l frames)
    (entry : e.runs[r]? = some run)
    (inside : frames.length ≤ run.stack.length) :
    Recalls origin r (l ++ [(e, e')]) frames :=
  recalls.congr fun _ hk => opened_concat_of_ne entry (by omega) l

/-- A run that goes in opens the span of its frame. -/
theorem opens?_of_push
    {f : Frame}
    (entry : e.runs[r]? = some run)
    (entry' : e'.runs[r]? = some run')
    (stack : run'.stack = f :: run.stack) :
    opens? r run.stack.length (e, e') = f.span? := by
  rw [opens?_of_entry entry entry', if_pos ⟨rfl, by rw [stack]; rfl⟩, stack]
  rfl

/-- A run that goes in has a frame that recalls the span that it has opened. -/
theorem Recalls.push
    {f : Frame}
    (recalls : Recalls origin r l run.stack)
    (entry : e.runs[r]? = some run)
    (entry' : e'.runs[r]? = some run')
    (stack : run'.stack = f :: run.stack)
    (given : ∀ shutdown ctx repeated due, f = .retry shutdown ctx repeated due →
      ctx = origin.inside run.stack) :
    Recalls origin r (l ++ [(e, e')]) (f :: run.stack) := by
  refine ⟨fun span hf => ?_, given, recalls.next entry le_rfl⟩
  have hopens := opens?_of_push entry entry' stack
  rw [hf] at hopens
  rw [opened_append]
  simp [opened, hopens, Frame.span?]

/-- **A run that walks threads its context through.** -/
theorem Threads.walk
    (threads : Threads origin r l run)
    (h : e.Walk r run job run' job' signs)
    (entry : e.runs[r]? = some run)
    (entry' : e'.runs[r]? = some run') :
    Threads origin r (l ++ [(e, e')]) run' := by
  obtain ⟨hcontext, hframes⟩ := threads
  have hown : ∀ {ctx : Context}, run.control.context? = some ctx → ctx = origin.inside run.stack :=
    hcontext _
  have hstay : Recalls origin r (l ++ [(e, e')]) run.stack := hframes.next entry le_rfl
  have hpop : ∀ {f : Frame} {frames : List Frame}, run.stack = f :: frames →
      Recalls origin r (l ++ [(e, e')]) frames := by
    intro f frames stack
    rw [stack] at hstay
    exact hstay.2.2
  have hnone : ∀ {c : Control}, c.context? = none →
      ∀ ctx, c.context? = some ctx → ctx = origin.inside run'.stack := by
    intro c hc ctx hctx
    rw [hc] at hctx
    cases hctx
  cases h with
  | @enter ctx ctx' layer layer' f control _ opens =>
      have hctx := hown (by rw [control]; rfl)
      refine ⟨fun _ h => Option.some.inj h ▸ ?_, hframes.push entry entry' rfl ?_⟩
      · cases opens with
        | trace tracer span => rw [hctx, Context.inside_trace]; rfl
        | recover | track | retry | skip | delay | tag =>
            exact hctx.trans (origin.inside_cons rfl _).symm
      · rintro shutdown context repeated due rfl
        cases opens
        exact hctx
  | take control | letIn control =>
      have hctx := hown (by rw [control]; rfl)
      exact ⟨fun _ h => Option.some.inj h ▸ hctx.trans (origin.inside_cons rfl _).symm,
        hframes.push entry entry' rfl (by simp)⟩
  | skip => exact ⟨hnone rfl, hstay⟩
  | miss control | join control | wake control =>
      exact ⟨fun _ h => Option.some.inj h ▸ hown (by rw [control]; rfl), hstay⟩
  | @call ctx control =>
      refine ⟨fun ctx' h => ?_, hstay⟩
      have hsame : ctx = ctx' := by
        cases hsleep : (job.task.script job.task.calls e.calls.length).sleep <;>
          simpa [callControl, hsleep, Control.context?] using h
      exact hsame ▸ hown (by rw [control]; rfl)
  | proceed | answer | burst | finish | escape => exact ⟨hnone rfl, hstay⟩
  | bar control stack | rescue control stack | overflow control stack | settle control stack
  | stop control stack | pass control stack | unwind control stack => exact ⟨hnone rfl, hpop stack⟩
  | pause control stack =>
      rw [stack] at hstay
      obtain ⟨-, hctx, hrest⟩ := hstay
      refine ⟨hnone rfl, by simp, fun _ _ _ _ h => ?_, hrest⟩
      cases h
      exact hctx _ _ _ _ rfl
  | again control stack =>
      rw [stack] at hstay
      obtain ⟨-, hctx, hrest⟩ := hstay
      have hsame := hctx _ _ _ _ rfl
      refine ⟨fun _ h => Option.some.inj h ▸ hsame.trans (origin.inside_cons rfl _).symm, by simp,
        fun _ _ _ _ h => ?_, hrest⟩
      cases h
      exact hsame

/-- A run threads its context through whatever becomes of it; one that is dropped has none left. -/
theorem Threads.next
    (threads : Threads origin r l run)
    (h : e.Becomes r run job run')
    (entry : e.runs[r]? = some run)
    (entry' : e'.runs[r]? = some run') :
    Threads origin r (l ++ [(e, e')]) run' := by
  cases h with
  | stays => exact ⟨threads.context, threads.frames.next entry le_rfl⟩
  | drops => exact ⟨nofun, trivial⟩
  | walks walk => exact threads.walk walk entry entry'

/-- **Wherever a run stands, its context is that with which it was started, inside its frames.** -/
theorem Path.threads
    (path : Path Occurs e l e')
    (orderly : e.Orderly)
    (entry : e.runs[r]? = some run)
    (decorated : e.jobs[run.job]? = some job)
    (stack : run.stack = [])
    (control : run.control = .entering origin) :
    ∃ run', e'.runs[r]? = some run' ∧ run'.job = run.job ∧ Threads origin r l run' := by
  refine path.carries (Threads origin r) orderly entry decorated (fun _ _ => trivial)
    ⟨fun ctx hctx => ?_, by rw [stack]; trivial⟩
    fun _ _ _ _ _ entry₁ entry₂ _ _ hbecomes _ threads => threads.next hbecomes entry₁ entry₂
  rw [control] at hctx
  rw [stack]
  exact (Option.some.inj hctx).symm

/-- **The innermost span on a stack is the last one that the nearest layer around has opened.** -/
theorem Recalls.span_eq_enclosing
    {chain : Chain}
    (recalls : Recalls origin r l frames)
    (fits : chain.Fits frames) :
    (origin.inside frames).span = enclosing chain origin.span r l frames.length := by
  induction frames with
  | nil => rfl
  | cons f frames ih =>
      obtain ⟨hspan, -, hframes⟩ := recalls
      obtain ⟨⟨w, hw, hfit⟩, hfits⟩ := fits
      have hrest := ih hframes hfits
      rw [List.length_cons, enclosing, hw]
      cases w with
      | trace tracer =>
          cases f with
          | trace span => rw [Context.inside_trace, hspan span rfl]
          | recover | track | retry | skip | delay | tag => cases hfit
      | recover | track | retry | skip | delay | tag =>
          rw [Context.inside_cons, hrest]
          cases f <;> first | rfl | cases hfit

end Threading

section Openings

variable {ctx : Context} {tracer : Tracer} {span : SpanRef}

/-- **A span is opened only by a run that goes into a layer that traces**, with the context that
the run has there. -/
theorem Tracing.opens
    (tracing : e.Tracing e')
    (opens : opens? r k (e, e') = some span) :
    ∃ run job ctx tracer, e.runs[r]? = some run ∧ e.jobs[run.job]? = some job ∧
      run.stack.length = k ∧ run.control = .entering ctx ∧
      job.layers[k]? = some (.trace tracer) ∧ span = e.nextSpan tracer ∧
      e' = e.enterLayer r run ctx (.trace tracer) := by
  cases hentry : e.runs[r]? with
  | none => simp [opens?, hentry] at opens
  | some run =>
      obtain ⟨run', entry', hrun⟩ := tracing.becomes hentry
      rw [opens?_of_entry hentry entry'] at opens
      obtain ⟨⟨hdepth, hdepth'⟩, hspan⟩ := Option.ite_none_right_eq_some.1 opens
      rcases hrun with rfl | rfl | ⟨job, job', signs, decorated, walked, traces⟩
      · omega
      · cases hdepth'
      · have hframe : run'.stack.reverse[k]? = some (.trace span) := by
          obtain ⟨f, hf, hspan⟩ := Option.bind_eq_some_iff.1 hspan
          obtain ⟨frames, hframes⟩ := List.head?_eq_some_iff.1 hf
          cases f with
          | trace span' =>
              cases hspan
              refine Run.frame_of_stack [] hframes ?_
              rw [hframes, List.length_cons] at hdepth'
              omega
          | recover | track | retry | skip | delay | tag => cases hspan
        have hnew : ¬run.stack.reverse[k]? = some (.trace span) := by
          rw [List.getElem?_eq_none (by simp [hdepth])]
          simp
        cases traces with
        | @opens ctx tracer control layer same =>
            refine ⟨run, job, ctx, tracer, rfl, decorated, hdepth, control, hdepth ▸ layer, ?_,
              same⟩
            have hruns := walked.entry hentry
            rw [same, runs_enterLayer_trace,
              List.getElem?_set_self (List.getElem?_eq_some_iff.1 hentry).1] at hruns
            rw [← Option.some.inj hruns] at hspan
            exact (Option.some.inj hspan).symm
        | closes control => exact absurd (walked.walk.trace_before (by simp [control]) hframe) hnew
        | aside _ opensNone => exact absurd (walked.walk.trace_before opensNone hframe) hnew

/-- In a step a span is opened with a key below another one, if there is one.  A tracer of the log
that finds a span of another kind there stays below the innermost span of the log. -/
def OpensBelow
    (e e' : Executor)
    (tracer : Tracer)
    (parent : Option SpanRef)
    (key : String) :
    Prop :=
  match tracer with
  | .recording =>
      e'.spans =
        e.spans ++ [⟨"cron_job", parent.bind SpanRef.recorded?, [("key", key)], []⟩]
  | .logging =>
      ∃ below, e.fresh e' = [.spanOpened below "cron_job" [("key", key)]] ∧
        ∀ n, parent = n.map SpanRef.logged → below = n
  | .silent => True

/-- Frames without any span are without one of the log. -/
theorem innermostSpan_of_none
    {frames : List Frame}
    (none : frames.findSome? Frame.span? = none) :
    innermostSpan frames = .none := by
  induction frames with
  | nil => rfl
  | cons f frames ih =>
      rw [List.findSome?_cons] at none
      cases f with
      | trace span => cases none
      | recover | track | retry | skip | delay | tag => exact ih none

/-- A run that goes into a layer that traces opens a span below that of its context. -/
theorem opensBelow_enterLayer
    (e : Executor)
    (r : RunId)
    (run : Run)
    (origin : Context)
    (tracer : Tracer) :
    e.OpensBelow (e.enterLayer r run (origin.inside run.stack) (.trace tracer)) tracer
      (origin.inside run.stack).span (e.jobKey run.job) := by
  cases tracer with
  | recording => rfl
  | silent => trivial
  | logging =>
      refine ⟨_, fresh_of_noteAll [_] rfl, fun n hn => ?_⟩
      simp only [parentSpan, hn]
      cases n with
      | some n => rfl
      | none =>
          have hnone : run.stack.findSome? Frame.span? = none := (Option.or_eq_none_iff.1 hn).1
          rw [innermostSpan_of_none hnone]
          rfl

/-- A run that has passed all layers calls its task with its only move, and hands its context to
the call. -/
theorem moves_of_call
    (entry : e.runs[r]? = some run)
    (decorated : e.jobs[run.job]? = some job)
    (control : run.control = .entering ctx)
    (innermost : job.layers[run.stack.length]? = none) :
    ∃ e₁ call, e.moves (.run r) = [e₁] ∧ e₁.calls = e.calls ++ [call] ∧ call.job = run.job ∧
      call.cancelled = e.isCancelled ctx.token ∧ call.span = ctx.span.bind SpanRef.recorded? := by
  let call : Call :=
    { job := run.job, key := job.task.key, value := job.task.value, started := e.now,
      cancelled := e.isCancelled ctx.token, span := ctx.span.bind SpanRef.recorded? }
  refine ⟨e.callTask r run ctx job.task, call, ?_, ?_, rfl, rfl, rfl⟩
  · simp [moves, runMoves, entry, control, decorated, innermost]
  · unfold callTask beginCall
    dsimp only
    split <;> rfl

/-- A run that has come to a layer that traces goes in with its only move, and opens a span. -/
theorem moves_of_opening
    (entry : e.runs[r]? = some run)
    (decorated : e.jobs[run.job]? = some job)
    (control : run.control = .entering ctx)
    (layer : job.layers[run.stack.length]? = some (.trace tracer)) :
    e.moves (.run r) = [e.enterLayer r run ctx (.trace tracer)] ∧
      opens? r run.stack.length (e, e.enterLayer r run ctx (.trace tracer)) =
        some (e.nextSpan tracer) := by
  refine ⟨by simp [moves, runMoves, entry, control, decorated, layer], ?_⟩
  have entry' := congrArg (·[r]?) (e.runs_enterLayer_trace r run ctx tracer)
  rw [List.getElem?_set_self (List.getElem?_eq_some_iff.1 entry).1] at entry'
  exact opens?_of_push entry entry' rfl

end Openings

end Executor
end Timetable
