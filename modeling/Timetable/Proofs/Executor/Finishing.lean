import Timetable.Proofs.Executor.Barrier
import Timetable.Proofs.Executor.Spans

/-!
# How spans end

A span is finished when its run hands an outcome out of the layer that has opened it.  If the
outcome is a failure, it is written on the span first.  A run that unwinds out of the layer leaves
the span as it was opened, and so does one that is dropped: such a span is never finished, and
nothing on it tells of the failure.

Main results:

* a span is written on only by the run that comes out of its layer (Tracing.spared,
  Tracing.in_layer);
* what is on a span at any moment is told by the way in which its run has come out of the layer
  (span_tells_end);
* a run that unwinds leaves its span open (unwound_stays_open).
-/

namespace Timetable

/-- What a run does to a span in the end, when it comes out of the layer, if it does. -/
def lastDeeds : Option Result → List SpanDeed
  | some (.outcome .ok) => [.finished]
  | some (.outcome (.err f)) => [.tagged "error" "true", .noted f.spanFields, .finished]
  | _ => []

/-- The span after its run has come out of the layer, if it has. -/
def RecordedSpan.ended
    (s : RecordedSpan)
    (x : Option Result) :
    RecordedSpan :=
  (lastDeeds x).foldl RecordedSpan.did s

namespace RecordedSpan

variable (s : RecordedSpan)

theorem deeds_ended (x : Option Result) : (s.ended x).deeds = s.deeds ++ lastDeeds x := by
  have hfolded : ∀ (deeds : List SpanDeed) (s : RecordedSpan),
      (deeds.foldl did s).deeds = s.deeds ++ deeds := by
    intro deeds
    induction deeds with
    | nil => exact fun s => (List.append_nil _).symm
    | cons deed deeds ih =>
        intro s
        rw [List.foldl_cons, ih, did, List.append_assoc, List.singleton_append]
  exact hfolded _ s

@[simp] theorem tags_did (deed : SpanDeed) :
    (s.did deed).tags = s.tags ++ [deed].filterMap fun
      | .tagged name value => some (name, value)
      | _ => none := by
  rw [tags, did, List.filterMap_append, ← List.append_assoc]
  rfl

@[simp] theorem fields_did (deed : SpanDeed) :
    (s.did deed).fields = s.fields ++ [deed].flatMap fun
      | .noted fields => fields
      | _ => [] := by
  rw [fields, did, List.flatMap_append]
  rfl

@[simp] theorem finished_did (deed : SpanDeed) :
    (s.did deed).finished = s.finished + [deed].count .finished := by
  rw [finished, did, List.count_append]
  rfl

end RecordedSpan

/-- What is written on a span of the log when its run comes out of the layer, if it does. -/
def lastWords
    (n : Nat) :
    Option Result → List Event
  | some (.outcome .ok) => [.spanFinished n]
  | some (.outcome (.err f)) =>
      [.spanRecorded n "error" "true",
        .logged ⟨.info, "span log", [("fields", Text.quotePairs f.spanFields)], some n⟩,
        .spanFinished n]
  | _ => []

namespace Executor

variable {e e' : Executor} {r i : RunId} {run run' : Run} {job job' : Job} {signs : List Sign}
  {span : SpanRef} {d k : Nat} {above below frames : List Frame}

section Observations

/-- The way in which a run comes out of the layer at a depth in a step. -/
def comesOut?
    (r : RunId)
    (d : Nat)
    (s : Executor × Executor) :
    Option Result :=
  match s.1.runs[r]?, s.2.runs[r]? with
  | some run, some run' => if d < run.stack.length then run'.departed? d else none
  | _, _ => none

/-- The way in which a run first comes out of the layer at a depth on a path. -/
def exit?
    (r : RunId)
    (d : Nat)
    (l : List (Executor × Executor)) :
    Option Result :=
  l.findSome? (comesOut? r d)

/-- What is written on a span of the log in a step. -/
def writtenOn
    (n : Nat)
    (s : Executor × Executor) :
    List Event :=
  (s.1.fresh s.2).filter fun event => event.span? == some n

/-- Nobody but the runs writes on spans in a step. -/
def Discreet (s : Executor × Executor) : Prop :=
  (∃ r, s.2 ∈ s.1.runMoves r) ∨ ∀ event ∈ s.1.fresh s.2, event.span? = none

theorem exit?_concat
    (r : RunId)
    (d : Nat)
    (l : List (Executor × Executor))
    (s : Executor × Executor) :
    exit? r d (l ++ [s]) = (exit? r d l).or (comesOut? r d s) := by
  simp [exit?, List.findSome?_append]

theorem comesOut?_of_entry
    (entry : e.runs[r]? = some run)
    (entry' : e'.runs[r]? = some run')
    (inside : d < run.stack.length) :
    comesOut? r d (e, e') = run'.departed? d := by
  simp [comesOut?, entry, entry', inside]

end Observations

section Closing

/-- An outcome is written in the table exactly on the span that is closed. -/
theorem getElem?_closeSpan
    (e : Executor)
    (span : SpanRef)
    (o : Outcome)
    (n : Nat) :
    (e.closeSpan span o).spans[n]? =
      if span = .recorded n then (e.spans[n]?).map (·.ended (some (.outcome o)))
      else e.spans[n]? := by
  cases span with
  | silent => cases o <;> rfl
  | logged m => cases o <;> rfl
  | recorded m =>
      cases o with
      | ok =>
          simp only [closeSpan, finishSpan, List.getElem?_modify, SpanRef.recorded.injEq]
          split <;> simp [RecordedSpan.ended, lastDeeds]
      | err f =>
          simp only [closeSpan, finishSpan, attachFailure, List.getElem?_modify,
            SpanRef.recorded.injEq]
          split <;> simp [RecordedSpan.ended, lastDeeds, Function.comp_def]

/-- An outcome is written in the journal exactly on the span that is closed. -/
theorem fresh_closeSpan
    (e : Executor)
    (span : SpanRef)
    (o : Outcome) :
    e.fresh (e.closeSpan span o) =
      (span.logged?).elim [] fun n => lastWords n (some (.outcome o)) := by
  refine fresh_of_noteAll _ ?_
  cases span <;> cases o <;> rfl

theorem filter_lastWords
    (n m : Nat)
    (x : Option Result) :
    (lastWords m x).filter (fun event => event.span? == some n) =
      if m = n then lastWords n x else [] := by
  have hlast : ∀ event ∈ lastWords m x, event.span? = some m := by
    intro event hevent
    unfold lastWords at hevent
    split at hevent
    · rw [List.mem_singleton.1 hevent]
      rfl
    · simp only [List.mem_cons, List.not_mem_nil, or_false] at hevent
      rcases hevent with rfl | rfl | rfl <;> rfl
    · cases hevent
  by_cases hm : m = n
  · subst hm
    rw [if_pos rfl, List.filter_eq_self]
    intro event hevent
    simp [hlast event hevent]
  · rw [if_neg hm, List.filter_eq_nil_iff]
    intro event hevent
    simp [hlast event hevent, hm]

end Closing

/-- Nothing is written on a span in a step. -/
structure Spared
    (e e' : Executor)
    (span : SpanRef) :
    Prop where
  recorded : ∀ n, span = .recorded n → e'.spans[n]? = e.spans[n]?
  logged : ∀ n, span = .logged n → Discreet (e, e') → writtenOn n (e, e') = []

theorem writtenOn_of_plain
    (events : List Event)
    (journal : e'.journal = e.journal.noteAll events)
    (plain : ∀ event ∈ events, event.span? = none)
    (n : Nat) :
    writtenOn n (e, e') = [] := by
  rw [writtenOn, fresh_of_noteAll events journal, List.filter_eq_nil_iff]
  intro event hevent
  simp [plain event hevent]

/-- A run closes a span when it hands an outcome out of the layer of the span. -/
def ClosedBy
    (e e' : Executor)
    (span : SpanRef)
    (r : RunId)
    (run : Run)
    (frames : List Frame)
    (o : Outcome) :
    Prop :=
  e.runs[r]? = some run ∧ run.control = .leaving o ∧ run.stack = .trace span :: frames ∧
    e' = (e.closeSpan span o).resume r run frames (.leaving o)

/-- **A move of a run writes on no span that is known, unless it closes the span.** -/
theorem Traces.spared
    (traces : e.Traces e' r run job)
    (entry : e.runs[r]? = some run)
    (known : e.knows span)
    (open' : ∀ frames o, ¬e.ClosedBy e' span r run frames o) :
    e.Spared e' span := by
  cases traces with
  | @opens ctx tracer control layer same =>
      subst same
      cases tracer with
      | recording =>
          refine ⟨fun n hn => ?_, fun n _ _ => writtenOn_of_plain [] rfl (by simp) n⟩
          subst hn
          exact List.getElem?_append_left known
      | logging =>
          refine ⟨fun n _ => rfl, fun n _ _ => writtenOn_of_plain [_] rfl ?_ n⟩
          simp [Event.span?]
      | silent => exact ⟨fun n _ => rfl, fun n _ _ => writtenOn_of_plain [] rfl (by simp) n⟩
  | @closes o span' frames control stack same =>
      rw [leaveFrame_trace] at same
      have hother : span' ≠ span := by
        rintro rfl
        exact open' frames o ⟨entry, control, stack, same⟩
      have hfresh : e.fresh e' = e.fresh (e.closeSpan span' o) := by
        rw [same]
        rfl
      refine ⟨fun n hn => ?_, fun n hn _ => ?_⟩
      · subst hn same
        exact (e.getElem?_closeSpan span' o n).trans (if_neg hother)
      · rw [writtenOn, hfresh, fresh_closeSpan]
        cases span' with
        | recorded | silent => rfl
        | logged m =>
            have hm : m ≠ n := by
              rintro rfl
              exact hother hn.symm
            exact (filter_lastWords n m _).trans (if_neg hm)
  | aside untraced =>
      obtain ⟨events, hevents, hplain⟩ := untraced.journal
      exact ⟨fun n _ => by rw [untraced.spans], fun n _ _ =>
        writtenOn_of_plain events hevents (fun event hevent => (hplain event hevent).2) n⟩

/-- **Whatever occurs writes on no span that is known, unless a run closes the span.** -/
theorem Tracing.spared
    (tracing : e.Tracing e')
    (rooted : e.Rooted)
    (known : e.knows span)
    (open' : ∀ r run frames o, ¬e.ClosedBy e' span r run frames o) :
    e.Spared e' span := by
  have hmoved : (∃ r, e' ∈ e.runMoves r) → e.Spared e' span := by
    rintro ⟨r, hmove⟩
    obtain ⟨run, _, job, _, _, entry, -, -, htraces⟩ := tracing_of_mem_runMoves rooted hmove
    exact htraces.spared entry known (open' r run)
  have hbeside : e.Grows e' → e.Spared e' span := by
    intro hgrows
    by_cases hmove : ∃ r, e' ∈ e.runMoves r
    · exact hmoved hmove
    · obtain ⟨events, hevents⟩ := hgrows.journal
      refine ⟨fun n _ => by rw [hgrows.spans], fun n _ hdiscreet => ?_⟩
      have hplain := hdiscreet.resolve_left hmove
      rw [fresh_of_noteAll events hevents] at hplain
      exact writtenOn_of_plain events hevents hplain n
  cases tracing with
  | moves entry _ _ traces => exact traces.spared entry known (open' _ _)
  | drops _ grows => exact hbeside grows
  | onlooks onlooks => exact hbeside onlooks.grows

section Inside

/-- A run that is inside a layer that traces stays there, or comes out of it. -/
theorem Walk.out_of_trace
    (h : e.Walk r run job run' job' signs)
    (stack : run.stack = above ++ .trace span :: below) :
    (∃ above', run'.stack = above' ++ .trace span :: below) ∨
      above = [] ∧ run'.stack = below ∧
        ((∃ o, run.control = .leaving o) ∨
          ∃ p, run.control = .unwinding p ∧ run'.control = .unwinding p) := by
  by_cases hinside : above ≠ [] ∨ run.control.station = .trying
  · obtain ⟨above', hstack, -⟩ := h.keeps_frame stack hinside
    exact Or.inl ⟨above', hstack⟩
  obtain ⟨habove, htop⟩ := not_or.1 hinside
  obtain rfl := not_not.1 habove
  have hbelow : ∀ {f : Frame} {frames : List Frame}, run.stack = f :: frames →
      f = .trace span ∧ frames = below := fun h => List.cons.inj (h.symm.trans stack)
  have hbusy : ∀ {c : Control}, run.control = c → c.station = .trying → False := by
    rintro c rfl hstation
    exact htop hstation
  have hother : ∀ {f : Frame} {frames : List Frame}, run.stack = f :: frames → f ≠ .trace span →
      False := fun hstack hf => hf (hbelow hstack).1
  cases h with
  | enter control | skip control | miss control | join control | take control | letIn control
  | call control | wake control | proceed control | answer control | burst control =>
      exact (hbusy control rfl).elim
  | bar control stack' | rescue control stack' | overflow control stack' | settle control stack'
  | pause control stack' | again control stack' | stop control stack' =>
      exact (hother stack' (by simp)).elim
  | pass control stack' => exact Or.inr ⟨rfl, (hbelow stack').2, Or.inl ⟨_, control⟩⟩
  | unwind control stack' =>
      exact Or.inr ⟨rfl, (hbelow stack').2, Or.inr ⟨_, control, rfl⟩⟩
  | finish control stack' | escape control stack' => simp [stack] at stack'

/-- A run that closes a span comes out of its layer with the outcome. -/
theorem ClosedBy.comesOut
    {o : Outcome}
    (closed : e.ClosedBy e' span r run frames o) :
    comesOut? r frames.length (e, e') = some (.outcome o) := by
  obtain ⟨entry, -, stack, same⟩ := closed
  have hentry' : e'.runs[r]? = some { run with stack := frames, control := .leaving o } := by
    have hruns : (e.closeSpan span o).runs = e.runs := by
      cases span <;> cases o <;> rfl
    rw [same]
    show ((e.closeSpan span o).runs.set r _)[r]? = _
    rw [hruns, List.getElem?_set_self (List.getElem?_eq_some_iff.1 entry).1]
  rw [comesOut?_of_entry entry hentry' (by simp [stack])]
  exact if_pos rfl

/-- **A run that is inside a layer that traces stays there, is dropped, unwinds out of the layer,
or closes the span.** -/
theorem Tracing.in_layer
    (tracing : e.Tracing e')
    (entry : e.runs[r]? = some run)
    (stack : run.stack = above ++ .trace span :: below) :
    (comesOut? r below.length (e, e') = none ∧ ∃ run', e'.runs[r]? = some run' ∧
        ((∃ above', run'.stack = above' ++ .trace span :: below) ∨
          run'.stack = [] ∧ run'.control = .dropped)) ∨
      (∃ p, comesOut? r below.length (e, e') = some (.burst p)) ∨
      ∃ o, e.ClosedBy e' span r run below o := by
  have hdeep : below.length < run.stack.length := by
    rw [stack, List.length_append, List.length_cons]
    omega
  obtain ⟨run', entry', rfl | rfl | ⟨job, job', signs, decorated, walked, traces⟩⟩ :=
    tracing.becomes entry
  · refine Or.inl ⟨?_, run', entry', Or.inl ⟨above, stack⟩⟩
    rw [comesOut?_of_entry entry entry' hdeep, Run.departed?_of_inside above stack]
  · refine Or.inl ⟨?_, _, entry', Or.inr ⟨rfl, rfl⟩⟩
    rw [comesOut?_of_entry entry entry' hdeep]
    simp [Run.departed?, Control.station, Station.result?]
  · rcases walked.walk.out_of_trace stack with
      ⟨above', hstack⟩ | ⟨rfl, hout, ⟨o, hleaving⟩ | ⟨p, -, hunwinding⟩⟩
    · refine Or.inl ⟨?_, run', entry', Or.inl ⟨above', hstack⟩⟩
      rw [comesOut?_of_entry entry entry' hdeep, Run.departed?_of_inside above' hstack]
    · cases traces with
      | opens control =>
          rw [hleaving] at control
          cases control
      | @closes o' span' frames control stack' same =>
          obtain ⟨hspan, rfl⟩ := List.cons.inj (stack'.symm.trans stack)
          obtain rfl := Frame.trace.inj hspan
          rw [leaveFrame_trace] at same
          exact Or.inr (Or.inr ⟨o', entry, control, stack', same⟩)
      | aside _ _ closesNone => exact absurd stack (closesNone o span below hleaving)
    · refine Or.inr (Or.inl ⟨p, ?_⟩)
      rw [comesOut?_of_entry entry entry' hdeep, Run.departed?, if_pos (by rw [hout]), hunwinding]
      rfl

end Inside

/-- Where a run stands that has opened a span: inside the layer, dropped, or out of it. -/
inductive Stand
    (e : Executor)
    (r : RunId)
    (d : Nat)
    (span : SpanRef) :
    Option Result → Prop
  | inside
      {run : Run}
      {above below : List Frame}
      (entry : e.runs[r]? = some run)
      (stack : run.stack = above ++ .trace span :: below)
      (depth : below.length = d) :
      Stand e r d span none
  | lost
      {run : Run}
      (entry : e.runs[r]? = some run)
      (stack : run.stack = [])
      (control : run.control = .dropped) :
      Stand e r d span none
  | out (x : Result) : Stand e r d span (some x)

/-- A span that has been opened by a run in the layer at a depth: it is known, and nobody else has
it on the stack. -/
structure Held
    (e : Executor)
    (r : RunId)
    (d : Nat)
    (span : SpanRef)
    (x : Option Result) :
    Prop where
  stand : e.Stand r d span x
  known : e.knows span
  lone : span ≠ .silent → ∀ i k, e.Bears span i k → i = r ∧ k = d ∧ x = none

section Holding

variable {x : Option Result}

/-- A run that comes out of a layer is no longer in it. -/
theorem comesOut?_of_bears
    (bears : e'.Bears span r d) :
    comesOut? r d (e, e') = none := by
  obtain ⟨run', entry', hframe⟩ := bears
  have hlt : d < run'.stack.length := by simpa using (List.getElem?_eq_some_iff.1 hframe).1
  unfold comesOut?
  rw [entry']
  split
  · rename_i run run'' _ hrun
    obtain rfl := Option.some.inj hrun
    split
    · exact if_neg (by omega)
    · rfl
  · rfl

/-- Where a run stands that has opened a span, it stands after whatever occurs, unless it comes
out of the layer. -/
theorem Stand.next
    (stand : e.Stand r d span x)
    (tracing : e.Tracing e') :
    e'.Stand r d span (x.or (comesOut? r d (e, e'))) := by
  cases stand with
  | out x => exact .out x
  | @inside run above below entry stack depth =>
      subst depth
      rw [Option.none_or]
      rcases tracing.in_layer entry stack with
        ⟨hnone, run', entry', ⟨above', hstack⟩ | ⟨hstack, hcontrol⟩⟩ | ⟨p, hburst⟩ | ⟨o, hclosed⟩
      · rw [hnone]
        exact .inside entry' hstack rfl
      · rw [hnone]
        exact .lost entry' hstack hcontrol
      · rw [hburst]
        exact .out _
      · rw [hclosed.comesOut]
        exact .out _
  | @lost run entry stack control =>
      rw [Option.none_or]
      obtain ⟨run', entry', rfl | rfl | ⟨_, _, _, -, walked, -⟩⟩ := tracing.becomes entry
      · have hnone : comesOut? r d (e, e') = none := by simp [comesOut?, entry, entry', stack]
        rw [hnone]
        exact .lost entry' stack control
      · have hnone : comesOut? r d (e, e') = none := by simp [comesOut?, entry, entry', stack]
        rw [hnone]
        exact .lost entry' rfl rfl
      · have hlasts := walked.walk.lasts
        rw [Run.isOver, control] at hlasts
        cases hlasts

/-- **A span that is held is held after whatever occurs.** -/
theorem Held.next
    (held : e.Held r d span x)
    (tracing : e.Tracing e') :
    e'.Held r d span (x.or (comesOut? r d (e, e'))) := by
  refine ⟨held.stand.next tracing, tracing.knows held.known, fun audible i k bears => ?_⟩
  rcases tracing.bears bears with hbefore | ⟨-, tracer, rfl⟩
  · obtain ⟨rfl, rfl, rfl⟩ := held.lone audible i k hbefore
    exact ⟨rfl, rfl, comesOut?_of_bears bears⟩
  · exact absurd held.known (e.not_knows_nextSpan (by rintro rfl; exact audible rfl))

/-- Unless its span is closed, a run stays inside the layer, or unwinds out of it. -/
theorem Held.unclosed
    (held : e.Held r d span none)
    (tracing : e.Tracing e')
    (opened : ¬∃ i run frames o, e.ClosedBy e' span i run frames o) :
    comesOut? r d (e, e') = none ∨ ∃ p, comesOut? r d (e, e') = some (.burst p) := by
  cases held.stand with
  | @inside run above below entry stack depth =>
      subst depth
      rcases tracing.in_layer entry stack with ⟨hnone, -⟩ | hburst | ⟨o, h⟩
      · exact Or.inl hnone
      · exact Or.inr hburst
      · exact absurd ⟨r, run, below, o, h⟩ opened
  | lost entry stack =>
      left
      unfold comesOut?
      split
      · rename_i hrun _
        obtain rfl := Option.some.inj (entry.symm.trans hrun)
        exact if_neg (by simp [stack])
      · rfl

/-- **In a step there is written on a span that is held what its run makes of it by coming out of
the layer.** -/
theorem Held.written
    (held : e.Held r d span x)
    (tracing : e.Tracing e')
    (rooted : e.Rooted) :
    (∀ n (s : RecordedSpan), span = .recorded n → e.spans[n]? = some (s.ended x) →
      e'.spans[n]? = some (s.ended (x.or (comesOut? r d (e, e'))))) ∧
      ∀ n, span = .logged n → Discreet (e, e') → lastWords n x ++ writtenOn n (e, e') =
        lastWords n (x.or (comesOut? r d (e, e'))) := by
  by_cases hclosed : ∃ i run frames o, e.ClosedBy e' span i run frames o
  · obtain ⟨i, run, frames, o, hclosed⟩ := hclosed
    have hout := hclosed.comesOut
    obtain ⟨entry, control, stack, same⟩ := hclosed
    have hbears : e.Bears span i frames.length := ⟨run, entry, Run.frame_of_stack [] stack rfl⟩
    have hfresh : e.fresh e' = e.fresh (e.closeSpan span o) := by
      rw [same]
      rfl
    refine ⟨fun n s hn hs => ?_, fun n hn _ => ?_⟩
    · obtain ⟨rfl, rfl, rfl⟩ := held.lone (by simp [hn]) _ _ hbears
      rw [hout, same]
      refine (e.getElem?_closeSpan span o n).trans ?_
      rw [if_pos hn, hs]
      rfl
    · obtain ⟨rfl, rfl, rfl⟩ := held.lone (by simp [hn]) _ _ hbears
      subst hn
      rw [hout, writtenOn, hfresh, fresh_closeSpan]
      exact (filter_lastWords n n _).trans (if_pos rfl)
  · have hspared := tracing.spared rooted held.known fun r run frames o h =>
      hclosed ⟨r, run, frames, o, h⟩
    have hsame : (∀ s : RecordedSpan, s.ended (x.or (comesOut? r d (e, e'))) = s.ended x) ∧
        ∀ n, lastWords n (x.or (comesOut? r d (e, e'))) = lastWords n x := by
      cases x with
      | some x => exact ⟨fun _ => rfl, fun _ => rfl⟩
      | none =>
          rcases held.unclosed tracing hclosed with hnone | ⟨p, hburst⟩
          · rw [hnone]
            exact ⟨fun _ => rfl, fun _ => rfl⟩
          · rw [hburst]
            exact ⟨fun _ => rfl, fun _ => rfl⟩
    refine ⟨fun n s hn hs => ?_, fun n hn hdiscreet => ?_⟩
    · rw [hspared.recorded n hn, hs, hsame.1]
    · rw [hspared.logged n hn hdiscreet, List.append_nil, hsame.2]

end Holding

/-- What becomes of a span that a run has opened in the layer at a depth. -/
structure Tells
    (r : RunId)
    (d : Nat)
    (span : SpanRef)
    (opened : RecordedSpan)
    (l : List (Executor × Executor))
    (e : Executor) :
    Prop where
  /-- Until it comes out the run is inside the layer, unless it is dropped. -/
  stands : exit? r d l = none →
    ∃ run, e.runs[r]? = some run ∧ (d < run.stack.length ∨ run.control = .dropped)
  /-- The table has of the span what the way out has made of it, and nothing else. -/
  recorded : ∀ n, span = .recorded n → e.spans[n]? = some (opened.ended (exit? r d l))
  /-- So has the journal, unless somebody who is no run writes there. -/
  logged : ∀ n, span = .logged n → (∀ s ∈ l, Discreet s) →
    l.flatMap (writtenOn n) = lastWords n (exit? r d l)
  /-- Once the run has come out, the span is finished once and tells whether the run has failed,
  exactly unless the run has unwound. -/
  told : ∀ n, span = .recorded n → ∀ x, exit? r d l = some x →
    ((∃ s, e.spans[n]? = some s ∧ s.finished = 1 ∧
        (("error", "true") ∈ s.tags ↔ x ≠ .outcome .ok) ∧ (s.fields ≠ [] ↔ x ≠ .outcome .ok)) ↔
      ∃ o, x = .outcome o)
  /-- The finish is the last thing that is done to the span, and is done once. -/
  last : ∀ n, span = .recorded n → ∀ s, e.spans[n]? = some s → .finished ∈ s.deeds →
    s.deeds.getLast? = some .finished ∧ s.finished = 1

/-- A run finishes a span once, and last. -/
theorem lastDeeds_of_finished
    {x : Option Result}
    (finished : .finished ∈ lastDeeds x) :
    (lastDeeds x).getLast? = some .finished ∧ (lastDeeds x).count .finished = 1 := by
  unfold lastDeeds at finished ⊢
  split at finished
  · exact ⟨rfl, rfl⟩
  · exact ⟨rfl, rfl⟩
  · cases finished

/-- A span that has been opened with the key of a job, and then ended, tells how its run has ended
exactly unless it has unwound. -/
theorem tells_iff
    (opened : RecordedSpan)
    (silent : ("error", "true") ∉ opened.tags)
    (blank : opened.fields = [])
    (unfinished : opened.finished = 0)
    (x : Result) :
    ((opened.ended (some x)).finished = 1 ∧
        (("error", "true") ∈ (opened.ended (some x)).tags ↔ x ≠ .outcome .ok) ∧
        ((opened.ended (some x)).fields ≠ [] ↔ x ≠ .outcome .ok)) ↔
      ∃ o, x = .outcome o := by
  cases x with
  | burst p => simp [RecordedSpan.ended, lastDeeds, unfinished]
  | outcome o =>
      cases o with
      | ok => simp [RecordedSpan.ended, lastDeeds, silent, blank, unfinished]
      | err f => simp [RecordedSpan.ended, lastDeeds, unfinished, JobFailure.spanFields]

section Opening

variable {ctx : Context} {tracer : Tracer}

/-- A span that has just been opened is held by its run. -/
theorem held_opened
    (acquainted : e.Acquainted)
    (entry : e.runs[r]? = some run) :
    (e.enterLayer r run ctx (.trace tracer)).Held r run.stack.length (e.nextSpan tracer) none := by
  have hruns := e.runs_enterLayer_trace r run ctx tracer
  have hlt := (List.getElem?_eq_some_iff.1 entry).1
  refine ⟨?_, ?_, fun audible i k bears => ?_⟩
  · have entry' := congrArg (·[r]?) hruns
    rw [List.getElem?_set_self hlt] at entry'
    exact .inside entry' (List.nil_append _).symm rfl
  · exact (e.knows_openSpan tracer "cron_job" (parentSpan tracer ctx run.stack)
      [("key", e.jobKey run.job)]).1
  · have hnew : ¬e.Bears (e.nextSpan tracer) i k := fun h =>
      e.not_knows_nextSpan (by rintro rfl; exact audible rfl) (acquainted _ _ _ h)
    obtain ⟨run', entry', hframe⟩ := bears
    rw [hruns] at entry'
    by_cases hi : r = i
    · subst hi
      rw [List.getElem?_set_self hlt] at entry'
      rw [← Option.some.inj entry', getElem?_reverse_cons] at hframe
      split at hframe
      · exact ⟨rfl, ‹_›, rfl⟩
      · exact absurd ⟨run, entry, hframe⟩ hnew
    · rw [List.getElem?_set_ne hi] at entry'
      exact absurd ⟨run', entry', hframe⟩ hnew

/-- A span that is held tells at every moment how its run has come out of the layer. -/
theorem Held.path
    {opened : RecordedSpan}
    {l : List (Executor × Executor)}
    (held : e.Held r d span none)
    (orderly : e.Orderly)
    (first : ∀ n, span = .recorded n → e.spans[n]? = some opened)
    (path : Path Occurs e l e') :
    e'.Orderly ∧ e'.Held r d span (exit? r d l) ∧
      (∀ n, span = .recorded n → e'.spans[n]? = some (opened.ended (exit? r d l))) ∧
      ∀ n, span = .logged n → (∀ s ∈ l, Discreet s) →
        l.flatMap (writtenOn n) = lastWords n (exit? r d l) := by
  induction path with
  | start => exact ⟨orderly, held, first, fun _ _ _ => rfl⟩
  | @next l b b' path last ih =>
      obtain ⟨horderly, hheld, hrecorded, hlogged⟩ := ih
      have htracing := last.tracing horderly.rooted
      obtain ⟨hrecorded', hlogged'⟩ := hheld.written htracing horderly.rooted
      rw [exit?_concat]
      refine ⟨horderly.occurs last, hheld.next htracing, fun n hn => ?_, fun n hn hdiscreet => ?_⟩
      · exact hrecorded' n opened hn (hrecorded n hn)
      · rw [List.flatMap_append, List.flatMap_singleton,
          hlogged n hn fun s hs => hdiscreet s (List.mem_append_left _ hs)]
        exact hlogged' n hn (hdiscreet _ List.mem_concat_self)

/-- **What is on a span is told by the way in which its run has come out of the layer.**  The run
opens the span with its only move at the layer. -/
theorem span_tells_end
    {e₀ : Executor}
    (runs₀ : e₀.runs = [])
    (jobs₀ : e₀.jobs = [])
    {l₀ : List (Executor × Executor)}
    (before : Path Occurs e₀ l₀ e)
    (entry : e.runs[r]? = some run)
    (decorated : e.jobs[run.job]? = some job)
    (control : run.control = .entering ctx)
    (layer : job.layers[run.stack.length]? = some (.trace tracer)) :
    let span := e.nextSpan tracer
    let parent := parentSpan tracer ctx run.stack
    let tags := [("key", job.task.key)]
    ∃ e₁, e.moves (.run r) = [e₁] ∧
      e₁.runs[r]? = some { run with
        stack := .trace span :: run.stack
        control := .entering { ctx with span := some span } } ∧
      (∀ n, span = .logged n →
        e.fresh e₁ = [.spanOpened (parent.bind SpanRef.logged?) "cron_job" tags]) ∧
      ∀ l e', Path Occurs e₁ l e' → Tells r run.stack.length span
        ⟨"cron_job", parent.bind SpanRef.recorded?, tags, []⟩ l e' := by
  intro span parent tags
  have horderly := (before.orderly runs₀ jobs₀).1
  have hkey : e.jobKey run.job = job.task.key := by simp [jobKey, decorated]
  have hmoves : e.moves (.run r) = [e.enterLayer r run ctx (.trace tracer)] := by
    simp [moves, runMoves, entry, control, decorated, layer]
  have hoccurs : e.Occurs (e.enterLayer r run ctx (.trace tracer)) :=
    .befalls (.act (c := []) (.change (.drift
      (.move (.run r) (hmoves ▸ List.mem_singleton_self _)))))
  have hheld : (e.enterLayer r run ctx (.trace tracer)).Held r run.stack.length span none :=
    held_opened (before.acquainted runs₀ jobs₀) entry
  refine ⟨_, hmoves, ?_, ?_, fun l e' path => ?_⟩
  · rw [runs_enterLayer_trace, List.getElem?_set_self (List.getElem?_eq_some_iff.1 entry).1]
  · intro n (hn : e.nextSpan tracer = .logged n)
    refine fresh_of_noteAll [_] ?_
    simp only [tags, ← hkey]
    cases tracer with
    | recording | silent => cases hn
    | logging => rfl
  · have hfirst : ∀ n, span = .recorded n →
        (e.enterLayer r run ctx (.trace tracer)).spans[n]? =
          some ⟨"cron_job", parent.bind SpanRef.recorded?, tags, []⟩ := by
      intro n (hn : e.nextSpan tracer = .recorded n)
      simp only [tags, ← hkey]
      cases tracer with
      | logging | silent => cases hn
      | recording =>
          cases hn
          exact List.getElem?_concat_length
    obtain ⟨-, hheld', hrecorded, hlogged⟩ :=
      hheld.path (horderly.occurs hoccurs) hfirst path
    refine ⟨fun hnone => ?_, hrecorded, hlogged, fun n hn x hx => ?_, fun n hn s hs hfinished => ?_⟩
    · have hstand := hheld'.stand
      rw [hnone] at hstand
      cases hstand with
      | @inside run' above below entry' stack depth =>
          refine ⟨run', entry', Or.inl ?_⟩
          rw [stack, List.length_append, List.length_cons, depth]
          omega
      | lost entry' stack control' => exact ⟨_, entry', Or.inr control'⟩
    · rw [hrecorded n hn, hx, ← tells_iff ⟨"cron_job", parent.bind SpanRef.recorded?, tags, []⟩
        (by simp [RecordedSpan.tags, tags]) rfl rfl x]
      simp
    · rw [hrecorded n hn] at hs
      obtain rfl := Option.some.inj hs
      rw [RecordedSpan.finished, RecordedSpan.deeds_ended, List.nil_append] at *
      exact lastDeeds_of_finished hfinished

end Opening

/-- A job with a fault barrier and a trace, whose only call ends in some way. -/
def traced (ending : Ending) : Executor :=
  (bench.addJob [.recover, .trace .recording] "sweep" .null (.ofList [{ ending := ending }])).1

/-- A run of the job is started and makes so many moves. -/
def moving (n : Nat) : List Incident :=
  .launch 0 :: List.replicate n (.move (.run 0) 0)

/-- All that has occurred by then, from the beginning. -/
def sinceBench
    (ending : Ending)
    (n : Nat) :
    List (Executor × Executor) :=
  (bench, traced ending) :: undergone (moving n) (traced ending)

/-- The state by then. -/
def afterMoves
    (ending : Ending)
    (n : Nat) :
    Executor :=
  terminus (traced ending) (undergone (moving n) (traced ending))

theorem path_sinceBench
    (ending : Ending)
    (n : Nat) :
    Path Occurs bench (sinceBench ending n) (afterMoves ending n) :=
  (Path.single (.befalls (.act (.change (.addJob _ _ _))))).append
    (path_undergone (moving n) (traced ending) fun _ _ _ _ h => occurs_of_undergo h)

theorem span_tells_end_late :
    let e := afterMoves (.fail "late") 1
    let l := undergone (List.replicate 4 (.move (.run 0) 0)) (afterMoves (.fail "late") 2)
    Path Occurs bench (sinceBench (.fail "late") 1) e ∧
      exit? 0 1 l = some (.outcome (.err (.failed "late"))) ∧
      ∃ run job, e.runs[0]? = some run ∧ e.jobs[run.job]? = some job ∧
        run.control = .entering ⟨1, none⟩ ∧ run.stack.length = 1 ∧
        job.layers[run.stack.length]? = some (.trace .recording) ∧
        ∃ e₁, e.moves (.run 0) = [e₁] ∧ ∃ e', Path Occurs e₁ l e' ∧
          Tells 0 1 (.recorded 0) ⟨"cron_job", none, [("key", "sweep")], []⟩ l e' := by
  intro e l
  have hrun : (e.runs[0]?).map (fun run => (run.job, run.stack, run.control)) =
      some (0, [.recover], .entering ⟨1, none⟩) := by
    decide +kernel
  have hjob : (e.jobs[0]?).map (fun job => (job.layers[1]?, job.task.key)) =
      some (some (.trace .recording), "sweep") := by
    decide +kernel
  obtain ⟨run, entry, hrun⟩ := Option.map_eq_some_iff.1 hrun
  obtain ⟨job, decorated, hjob⟩ := Option.map_eq_some_iff.1 hjob
  simp only [Prod.mk.injEq] at hrun hjob
  obtain ⟨hown, hstack, hcontrol⟩ := hrun
  obtain ⟨hlayer, hkey⟩ := hjob
  have hdecorated : e.jobs[run.job]? = some job := hown.symm ▸ decorated
  have htraces : job.layers[run.stack.length]? = some (.trace .recording) := by
    rw [hstack]
    exact hlayer
  have hbefore : Path Occurs bench (sinceBench (.fail "late") 1) e := path_sinceBench _ _
  obtain ⟨e₁, hmoves, -, -, htells⟩ :=
    span_tells_end rfl rfl hbefore entry hdecorated hcontrol htraces
  have hfirst : e.moves (.run 0) = [afterMoves (.fail "late") 2] := rfl
  obtain rfl := List.singleton_inj.1 (hmoves.symm.trans hfirst)
  have hpath : Path Occurs (afterMoves (.fail "late") 2) l
      (terminus (afterMoves (.fail "late") 2) l) :=
    path_undergone _ _ fun _ _ _ _ h => occurs_of_undergo h
  have hspan : e.nextSpan .recording = .recorded 0 := rfl
  have htold := htells l _ hpath
  rw [hstack, hkey, hspan] at htold
  exact ⟨hbefore, by decide +kernel, run, job, entry, hdecorated, hcontrol, by rw [hstack]; rfl,
    htraces, _, hmoves, _, hpath, htold⟩

/-- **A run that unwinds leaves its span open**, and nothing on the span tells of the failure. -/
theorem unwound_stays_open :
    ∃ l e, Path Occurs bench l e ∧
      (e.runs[0]?).map Run.control = some (.returned (.err (.panicked "broken"))) ∧
      e.spans = [⟨"cron_job", none, [("key", "sweep")], []⟩] :=
  ⟨_, _, path_sinceBench (.panic (.text "broken")) 8, by decide +kernel, by decide +kernel⟩

end Executor
end Timetable
