import Timetable.Proofs.Schedule.Agreement
import Timetable.Proofs.Schedule.Texts

/-!
# Compiling a text when it is needed

The text of a schedule is compiled when somebody asks about it, and what came of it
is kept.  Between the questions another parser or another window may be set.  A
parser forgets what is kept; a window does not, since it has no part in compiling.

So what is kept is always what the parser that is set says about the text, and a
question gets the answer that compiling afresh would give.  Until another parser is
set the text is compiled once at most, and a fault of it is counted once at most.
Whether it was compiled at the beginning or is still to be compiled shows in nothing.

Only a text that crashes the parser leaves nothing that could be kept.  It is compiled
whenever somebody asks about it (recompiled_of_crash).

Main results:

* a reply is that of the settings, as if the text were compiled for it (reply_use);
* the text is compiled exactly where nothing is kept and somebody asks about it
  (compiles_iff);
* at most one fault is counted until another parser is set (counts_le);
* a text that has been compiled at the beginning is used like one that has not
  (Ahead.use);
* replies are never stale, and compiling happens once, unless it crashes
  (compiled_once_never_stale).
-/

namespace Timetable

namespace Journal

/-- The number of faults that have been counted, of all codes together. -/
def faultCount (j : Journal) : Nat :=
  (Code.all.map fun code => j.value (.faults code)).sum

theorem faultCount_note_counted
    (j : Journal)
    (f : Fault) :
    (j.note f.counted).faultCount = j.faultCount + 1 := by
  simp only [faultCount, value_note, Fault.counted, Event.apply, Metric.faults.injEq]
  cases f.code <;> simp [Code.all] <;> omega

theorem faultCount_note_of_untouched
    {event : Event}
    (untouched : event.metric? = none)
    (j : Journal) :
    (j.note event).faultCount = j.faultCount := by
  simp only [faultCount, value_note]
  congr 2
  funext code
  exact Event.apply_of_untouched (by simp [untouched]) _

/-- Of events that count faults or are lines of the log, those that count are counted. -/
theorem faultCount_noteAll
    {events : List Event}
    (faults : ∀ event ∈ events, event.metric? = none ∨ ∃ f : Fault, event = f.counted)
    (j : Journal) :
    (j.noteAll events).faultCount =
      j.faultCount + events.countP fun event => event.metric?.isSome := by
  induction events generalizing j with
  | nil => rfl
  | cons event events ih =>
      rw [List.forall_mem_cons] at faults
      rw [noteAll, List.foldl_cons, ← noteAll, ih faults.2, List.countP_cons]
      rcases faults.1 with hnone | ⟨f, rfl⟩
      · rw [faultCount_note_of_untouched hnone, hnone]
        rfl
      · rw [faultCount_note_counted]
        have hsome : f.counted.metric?.isSome = true := rfl
        rw [hsome, if_pos rfl]
        omega

end Journal

namespace CronText

/-! ### Uses of a text -/

/-- What may be done with a text: something is set, or it is asked about. -/
inductive Use where
  | setParser (p : Parser)
  | setBegin (i : Instant)
  | setEnd (i : Instant)
  | setWindow (w : Window)
  | validate
  | expression
  | ask (q : Question) (i : Instant)

/-- What comes back of a use. -/
inductive Reply where
  | done
  | verdict (found : Except Crash (Option Fault))
  | expression (found : Except Crash (Except Fault Expression))
  | answer (found : Except Crash (Option Instant))
  deriving DecidableEq

/-- A reply, the text afterwards, and the events on the way. -/
structure Used where
  reply : Reply
  text : CronText
  events : List Event := []

/-- The text with something set; a question sets nothing. -/
def set (c : CronText) : Use → CronText
  | .setParser p => c.withParser p
  | .setBegin i => c.withBegin i
  | .setEnd i => c.withEnd i
  | .setWindow w => c.withWindow w
  | _ => c

/-- The text of a schedule that is one, with what is kept by now. -/
def keptBy
    (c : CronText)
    (s : Schedule) :
    CronText :=
  s.text?.getD c

/-- Use the text. -/
def use (c : CronText) (u : Use) : Used :=
  match u with
  | .validate =>
      let looked := (Schedule.cron c).validate
      ⟨.verdict looked.answer, c.keptBy looked.schedule, looked.events⟩
  | .expression =>
      match c.expression with
      | .ok (result, c', events) => ⟨.expression (.ok result), c', events⟩
      | .error x => ⟨.expression (.error x), c, []⟩
  | .ask q i =>
      let asked := (Schedule.cron c).ask q i
      ⟨.answer asked.answer, c.keptBy asked.schedule, asked.events⟩
  | u => ⟨.done, c.set u, []⟩

/-- The text after it has been used. -/
def afterwards
    (c : CronText)
    (uses : List Use) :
    CronText :=
  uses.foldl (fun c u => (c.use u).text) c

/-- What comes back of uses one after the other. -/
def replies (c : CronText) : List Use → List Reply
  | [] => []
  | u :: uses => (c.use u).reply :: (c.use u).text.replies uses

/-- The events of uses one after the other. -/
def eventsOf (c : CronText) : List Use → List Event
  | [] => []
  | u :: uses => (c.use u).events ++ (c.use u).text.eventsOf uses

/-! ### What is set -/

/-- What has been set: the text itself, the parser and the window. -/
structure Settings where
  text : String
  parser : Parser
  window : Window

namespace Settings

/-- What is set at the beginning. -/
def initial (zones : Zones) (text : String) : Settings :=
  ⟨text, Parser.knowing zones Layout.standard, Window.unbounded⟩

/-- The settings after a use. -/
def set (s : Settings) : Use → Settings
  | .setParser p => { s with parser := p }
  | .setBegin i => { s with window := { s.window with opens := some i } }
  | .setEnd i => { s with window := { s.window with closes := some i } }
  | .setWindow w => { s with window := w }
  | _ => s

/-- The reply that is due to a use, if the text is compiled for it. -/
def reply (s : Settings) : Use → Reply
  | .validate =>
      .verdict <|
        match s.parser.parse s.text with
        | .ok _ => .ok none
        | .error (.fault f) => .ok (some f)
        | .error (.crash x) => .error x
  | .expression =>
      .expression <|
        match s.parser.parse s.text with
        | .ok e => .ok (.ok e)
        | .error (.fault f) => .ok (.error f)
        | .error (.crash x) => .error x
  | .ask q i =>
      .answer <|
        match s.parser.parse s.text with
        | .ok e => ((Schedule.bounded s.window (.expression e)).ask q i).answer
        | .error (.fault _) => (Schedule.lookAfter q i).map fun _ => none
        | .error (.crash x) => Schedule.lookAfter q i >>= fun _ => .error x
  | _ => .done

/-- The replies that are due to uses one after the other. -/
def replies (s : Settings) : List Use → List Reply
  | [] => []
  | u :: uses => s.reply u :: (s.set u).replies uses

end Settings

/-- What has been set of a text. -/
def settings (c : CronText) : Settings :=
  ⟨c.text, c.parser, c.window⟩

variable {c c' : CronText} {u : Use} {uses : List Use} {r : Except Fault Expression}

theorem settings_set (c : CronText) (u : Use) : (c.set u).settings = c.settings.set u := by
  cases u <;> rfl

/-- What is kept is the only thing that finding the expression changes. -/
theorem eq_keeping_of_expression
    {events : List Event}
    (h : c.expression = .ok (r, c', events)) :
    c' = c.keeping r := by
  unfold expression at h
  cases hcompiled : c.compiled with
  | some kept =>
      rw [hcompiled] at h
      cases h
      rw [keeping, ← hcompiled]
  | none =>
      rw [hcompiled] at h
      dsimp only at h
      split at h <;> cases h <;> rfl

/-- What comes of a use in which the expression of the text is found. -/
def usedWith
    (c : CronText)
    (r : Except Fault Expression)
    (events : List Event)
    (u : Use) :
    Used :=
  match u with
  | .validate =>
      ⟨.verdict (.ok (match r with | .ok _ => none | .error f => some f)), c.keeping r, events⟩
  | .expression => ⟨.expression (.ok r), c.keeping r, events⟩
  | .ask q i =>
      match Schedule.lookAfter q i, r with
      | .error x, _ => ⟨.answer (.error x), c, []⟩
      | .ok after, .ok e =>
          ⟨.answer (Schedule.askWithin c.window (Schedule.askExpression e) after), c.keeping r,
            events⟩
      | .ok _, .error f => ⟨.answer (.ok none), c.keeping r, events ++ [c.complaint f]⟩
  | u => ⟨.done, c.set u, []⟩

/-- A use does nothing with the text but find its expression. -/
theorem use_of_expression
    {events : List Event}
    (h : c.expression = .ok (r, c', events))
    (u : Use) :
    c.use u = c.usedWith r events u := by
  obtain rfl := eq_keeping_of_expression h
  cases u with
  | setParser | setBegin | setEnd | setWindow => rfl
  | validate => cases r <;> simp [use, usedWith, Schedule.validate, h, keptBy, Schedule.text?]
  | expression => simp [use, usedWith, h]
  | ask q i =>
      cases hlook : Schedule.lookAfter q i <;> cases r <;>
        simp [use, usedWith, Schedule.ask, Schedule.askCron, hlook, h, keptBy, Schedule.text?,
          keeping, complaint]

/-- A use sets something and looks no further, or it finds the expression of the text, good or
bad, which is kept. -/
theorem use_cases
    (c : CronText)
    (u : Use) :
    ((c.use u).text = c.set u ∧ (c.use u).events = []) ∨
      c.set u = c ∧ ∃ r events more,
        c.expression = .ok (r, c.keeping r, events) ∧
        (c.use u).text = c.keeping r ∧
        (c.use u).events = events ++ more ∧
        ∀ event ∈ more, event.metric? = none := by
  cases hexpression : c.expression with
  | error x =>
      cases u with
      | setParser | setBegin | setEnd | setWindow => exact Or.inl ⟨rfl, rfl⟩
      | validate => simp [use, Schedule.validate, hexpression, keptBy, Schedule.text?, set]
      | expression => simp [use, hexpression, set]
      | ask q i =>
          left
          cases hlook : Schedule.lookAfter q i <;>
            simp [use, Schedule.ask, Schedule.askCron, hlook, hexpression, keptBy,
              Schedule.text?, set]
  | ok found =>
      obtain ⟨r, c', events⟩ := found
      obtain rfl := eq_keeping_of_expression hexpression
      rw [use_of_expression hexpression]
      cases u with
      | setParser | setBegin | setEnd | setWindow => exact Or.inl ⟨rfl, rfl⟩
      | validate | expression =>
          exact Or.inr ⟨rfl, r, events, [], rfl, rfl, (List.append_nil events).symm, by simp⟩
      | ask q i =>
          cases hlook : Schedule.lookAfter q i with
          | error x =>
              left
              simp [usedWith, hlook, set]
          | ok after =>
              right
              cases r with
              | ok e =>
                  refine ⟨rfl, .ok e, events, [], rfl, ?_, ?_, by simp⟩ <;>
                    simp only [usedWith, hlook, List.append_nil]
              | error f =>
                  refine ⟨rfl, .error f, events, [c.complaint f], rfl, ?_, ?_,
                    by simp [complaint, Event.metric?]⟩ <;>
                    simp only [usedWith, hlook]

/-- A use sets what it says and nothing else. -/
theorem settings_use
    (c : CronText)
    (u : Use) :
    (c.use u).text.settings = c.settings.set u := by
  rw [← settings_set]
  rcases c.use_cases u with ⟨htext, -⟩ | ⟨hset, r, events, more, -, htext, -⟩
  · rw [htext]
  · rw [htext, hset]
    rfl

theorem honest_set
    (honest : c.Honest)
    (u : Use) :
    (c.set u).Honest := by
  cases u with
  | setParser p => exact c.honest_withParser p
  | setBegin | setEnd | setWindow | validate | expression | ask => exact honest

theorem honest_use
    (honest : c.Honest)
    (u : Use) :
    (c.use u).text.Honest := by
  rcases c.use_cases u with ⟨htext, -⟩ | ⟨-, r, events, more, hexpression, htext, -⟩
  · rw [htext]
    exact honest_set honest u
  · rw [htext]
    exact honest_expression honest hexpression

/-- What the parser reads is what the text is read as, kept or not. -/
theorem reads_of_parse
    {e : Expression}
    (honest : c.Honest)
    (h : c.parser.parse c.text = .ok e) :
    c.Reads e := by
  cases hcompiled : c.compiled with
  | none => exact Or.inr ⟨hcompiled, h⟩
  | some result =>
      have hparse := honest result hcompiled
      rw [h] at hparse
      cases result with
      | ok e' =>
          cases hparse
          exact Or.inl hcompiled
      | error f => cases hparse

/-- **A reply is the one that is due**, as if the text were compiled for it. -/
theorem reply_use
    (honest : c.Honest)
    (u : Use) :
    (c.use u).reply = c.settings.reply u := by
  rcases expression_cases honest with
    ⟨e, hparse, he⟩ | ⟨f, events, hparse, hf, -⟩ | ⟨x, hparse, hx⟩
  · have reads := reads_of_parse honest hparse
    cases u with
    | setParser | setBegin | setEnd | setWindow => rfl
    | validate | expression =>
        simp only [use_of_expression he, usedWith, Settings.reply, settings, hparse]
    | ask q i =>
        have hagrees := Schedule.agrees_cron reads q i
        simp only [use, Settings.reply, settings, hparse, hagrees]
  · rw [use_of_expression hf]
    cases u with
    | setParser | setBegin | setEnd | setWindow => rfl
    | validate | expression => simp only [usedWith, Settings.reply, settings, hparse]
    | ask q i =>
        cases hlook : Schedule.lookAfter q i <;>
          simp only [usedWith, Settings.reply, settings, hparse, hlook, Except.map]
  · cases u with
    | setParser | setBegin | setEnd | setWindow => rfl
    | validate => simp [use, Settings.reply, settings, Schedule.validate, hparse, hx]
    | expression => simp [use, Settings.reply, settings, hparse, hx]
    | ask q i =>
        cases hlook : Schedule.lookAfter q i <;>
          simp [use, Settings.reply, settings, Schedule.ask, Schedule.askCron, hparse, hx,
            hlook, Bind.bind, Except.bind]

/-- Replies are never stale. -/
theorem replies_eq
    (honest : c.Honest)
    (uses : List Use) :
    c.replies uses = c.settings.replies uses := by
  induction uses generalizing c with
  | nil => rfl
  | cons u uses ih =>
      rw [replies, Settings.replies, reply_use honest, ih (honest_use honest u), settings_use]

/-! ### Compiling once -/

/-- Nothing that happens sets another parser. -/
def KeepsParser (uses : List Use) : Prop :=
  ∀ u ∈ uses, ∀ p, u ≠ .setParser p

/-- The use asks about the text, and gets as far as its expression. -/
def Use.Looks : Use → Prop
  | .validate | .expression => True
  | .ask q i => ∃ after, Schedule.lookAfter q i = .ok after
  | _ => False

/-- The text is compiled in a use: if it were another text, or another parser, something else would
have come of the use. -/
def Compiles
    (c : CronText)
    (u : Use) :
    Prop :=
  ∃ text p, let other := ({ c with text := text, parser := p } : CronText).use u
    other.reply ≠ (c.use u).reply ∨ other.text.compiled ≠ (c.use u).text.compiled

theorem compiled_set
    (still : ∀ p, u ≠ .setParser p) :
    (c.set u).compiled = c.compiled := by
  cases u with
  | setParser p => exact absurd rfl (still p)
  | setBegin | setEnd | setWindow | validate | expression | ask => rfl

theorem expression_of_kept (kept : c.compiled = some r) : c.expression = .ok (r, c, []) := by
  rw [expression, kept]

/-- What the expression is found to be is kept by a use that gets as far. -/
theorem compiled_use_of_looks
    {events : List Event}
    (looks : u.Looks)
    (h : c.expression = .ok (r, c', events)) :
    (c.use u).text.compiled = some r := by
  rw [use_of_expression h]
  cases u with
  | validate | expression => rfl
  | ask q i =>
      obtain ⟨after, hlook⟩ := looks
      cases r <;> simp [usedWith, hlook, keeping]
  | setParser | setBegin | setEnd | setWindow => exact looks.elim

/-- Nothing is kept where finding the expression crashes. -/
theorem compiled_use_of_crash
    {x : Crash}
    (looks : u.Looks)
    (h : c.expression = .error x) :
    (c.use u).text.compiled = none := by
  have hnone : c.compiled = none := by
    cases hcompiled : c.compiled with
    | none => rfl
    | some r =>
        rw [expression_of_kept hcompiled] at h
        cases h
  rcases c.use_cases u with ⟨htext, -⟩ | ⟨-, r, events, more, hexpression, -, -⟩
  · rw [htext]
    cases u with
    | validate | expression | ask => exact hnone
    | setParser | setBegin | setEnd | setWindow => exact looks.elim
  · rw [h] at hexpression
    cases hexpression

/-- Where a result is kept, nothing that comes of a use depends on the text or the parser. -/
theorem not_compiles_of_kept (kept : c.compiled = some r) : ¬ c.Compiles u := by
  rintro ⟨text, p, hother⟩
  have hother' : ({ c with text := text, parser := p } : CronText).expression =
      .ok (r, { c with text := text, parser := p }, []) := expression_of_kept kept
  revert hother
  simp only [use_of_expression (expression_of_kept kept), use_of_expression hother']
  cases u with
  | setParser | setBegin | setEnd | setWindow =>
      simp [usedWith, set, withParser, withBegin, withEnd, withWindow]
  | validate | expression => simp [usedWith, keeping]
  | ask q i =>
      cases hlook : Schedule.lookAfter q i <;> cases r <;> simp [usedWith, hlook, keeping]

/-- A use that does not get as far as the expression compiles nothing. -/
theorem looks_of_compiles (compiles : c.Compiles u) : u.Looks := by
  obtain ⟨text, p, hother⟩ := compiles
  cases u with
  | validate | expression => trivial
  | setParser | setBegin | setEnd | setWindow => exact (hother.elim (· rfl) (· rfl)).elim
  | ask q i =>
      cases hlook : Schedule.lookAfter q i with
      | ok after => exact ⟨after, hlook⟩
      | error x =>
          simp [use, Schedule.ask, hlook, keptBy, Schedule.text?] at hother

/-- Of some text and parser nothing else is kept than of the given ones. -/
theorem exists_parse_ne
    (c : CronText)
    (looks : u.Looks)
    (nothing : c.compiled = none) :
    ∃ text p, (({ c with text := text, parser := p } : CronText).use u).text.compiled ≠
      (c.use u).text.compiled := by
  have hempty : ∃ c' events, ({ c with text := "" } : CronText).expression =
      .ok (.error .emptySpec, c', events) := by
    unfold expression
    rw [nothing]
    exact ⟨_, _, rfl⟩
  have hyearly : ∃ e c' events,
      ({ c with text := "@yearly", parser := Parser.standard } : CronText).expression =
        .ok (.ok e, c', events) := by
    obtain ⟨e, he⟩ : ∃ e, Parser.standard.parse "@yearly" = .ok e := ⟨_, rfl⟩
    simp [expression, nothing, he]
  obtain ⟨_, _, hempty⟩ := hempty
  cases hexpression : c.expression with
  | error x =>
      refine ⟨"", c.parser, ?_⟩
      rw [compiled_use_of_looks looks hempty, compiled_use_of_crash looks hexpression]
      simp
  | ok found =>
      obtain ⟨r, c', events⟩ := found
      cases r with
      | ok e =>
          refine ⟨"", c.parser, ?_⟩
          rw [compiled_use_of_looks looks hempty, compiled_use_of_looks looks hexpression]
          simp
      | error f =>
          obtain ⟨e, c'', events', hok⟩ := hyearly
          refine ⟨"@yearly", Parser.standard, ?_⟩
          rw [compiled_use_of_looks looks hok, compiled_use_of_looks looks hexpression]
          simp

/-- **A text is compiled in a use exactly if nothing is kept and the use gets as far as the
expression.** -/
theorem compiles_iff : c.Compiles u ↔ c.compiled = none ∧ u.Looks := by
  constructor
  · intro compiles
    refine ⟨?_, looks_of_compiles compiles⟩
    by_contra hsome
    obtain ⟨r, hkept⟩ := Option.ne_none_iff_exists'.1 hsome
    exact not_compiles_of_kept hkept compiles
  · rintro ⟨nothing, looks⟩
    obtain ⟨text, p, hother⟩ := c.exists_parse_ne looks nothing
    exact ⟨text, p, Or.inr hother⟩

/-- What is kept goes on to be kept until another parser is set. -/
theorem compiled_use_of_kept
    (kept : c.compiled = some r)
    (still : ∀ p, u ≠ .setParser p) :
    (c.use u).text.compiled = some r := by
  rcases c.use_cases u with ⟨htext, -⟩ | ⟨-, r', events, more, hexpression, htext, -⟩
  · rw [htext, compiled_set still, kept]
  · rw [expression_of_kept kept, Except.ok.injEq, Prod.mk.injEq] at hexpression
    rw [htext, hexpression.1]
    rfl

theorem compiled_afterwards_of_kept
    (kept : c.compiled = some r)
    (still : KeepsParser uses) :
    (c.afterwards uses).compiled = some r := by
  induction uses generalizing c with
  | nil => exact kept
  | cons u uses ih =>
      rw [KeepsParser, List.forall_mem_cons] at still
      exact ih (compiled_use_of_kept kept still.1) still.2

theorem honest_afterwards
    (honest : c.Honest)
    (uses : List Use) :
    (c.afterwards uses).Honest := by
  induction uses generalizing c with
  | nil => exact honest
  | cons u uses ih => exact ih (honest_use honest u)

theorem text_afterwards
    (c : CronText)
    (uses : List Use) :
    (c.afterwards uses).text = c.text := by
  induction uses generalizing c with
  | nil => rfl
  | cons u uses ih =>
      refine (ih _).trans ((congrArg Settings.text (c.settings_use u)).trans ?_)
      cases u <;> rfl

theorem parser_afterwards
    (c : CronText)
    (still : KeepsParser uses) :
    (c.afterwards uses).parser = c.parser := by
  induction uses generalizing c with
  | nil => rfl
  | cons u uses ih =>
      rw [KeepsParser, List.forall_mem_cons] at still
      refine (ih _ still.2).trans ((congrArg Settings.parser (c.settings_use u)).trans ?_)
      cases u with
      | setParser p => exact absurd rfl (still.1 p)
      | setBegin | setEnd | setWindow | validate | expression | ask => rfl

/-- After the use in which the text is compiled no other one compiles it until another parser is
set, unless the text crashes the parser. -/
theorem crash_of_compiles_twice
    {v : Use}
    (honest : c.Honest)
    (still : KeepsParser uses)
    (compiles : c.Compiles u)
    (again : ((c.use u).text.afterwards uses).Compiles v) :
    ∃ x, c.parser.parse c.text = .error (.crash x) := by
  have looks := (compiles_iff.1 compiles).2
  have hkept : ∀ {r c' events}, c.expression ≠ .ok (r, c', events) := by
    intro r c' events hexpression
    have hcompiled := compiled_use_of_looks looks hexpression
    exact not_compiles_of_kept (compiled_afterwards_of_kept hcompiled still) again
  rcases expression_cases honest with ⟨e, -, he⟩ | ⟨f, events, -, hf, -⟩ | ⟨x, hparse, -⟩
  · exact absurd he hkept
  · exact absurd hf hkept
  · exact ⟨x, hparse⟩

/-- An event of a use counts a fault or touches no figure. -/
theorem fault_of_mem_events
    {event : Event}
    (h : event ∈ (c.use u).events) :
    event.metric? = none ∨ ∃ f : Fault, event = f.counted := by
  rcases c.use_cases u with ⟨-, hnone⟩ | ⟨-, r, events, more, hexpression, -, hevents, hmore⟩
  · rw [hnone] at h
    cases h
  · rw [hevents, List.mem_append] at h
    rcases h with h | h
    · right
      rcases events_of_expression hexpression with rfl | ⟨-, f, rfl⟩
      · cases h
      · exact ⟨f, List.mem_singleton.1 h⟩
    · exact Or.inl (hmore event h)

/-- **At most one fault is counted until another parser is set**, and none where a result is
kept. -/
theorem counts_le
    (still : KeepsParser uses) :
    (c.eventsOf uses).countP (·.metric?.isSome) ≤ if c.compiled.isSome then 0 else 1 := by
  induction uses generalizing c with
  | nil => exact Nat.zero_le _
  | cons u uses ih =>
      rw [KeepsParser, List.forall_mem_cons] at still
      have hrest := ih (c := (c.use u).text) still.2
      rw [eventsOf, List.countP_append]
      rcases c.use_cases u with
        ⟨htext, hevents⟩ | ⟨-, r, events, more, hexpression, htext, hevents, hmore⟩
      · rw [htext, compiled_set still.1] at hrest
        rw [hevents, List.countP_nil, Nat.zero_add, htext]
        exact hrest
      · rw [htext] at hrest
        have hmore' : more.countP (·.metric?.isSome) = 0 := by
          rw [List.countP_eq_zero]
          intro event hevent
          simp [hmore event hevent]
        have hrest' : ((c.keeping r).eventsOf uses).countP (·.metric?.isSome) = 0 :=
          Nat.le_zero.1 hrest
        rw [hevents, List.countP_append, hmore', htext, hrest']
        rcases events_of_expression hexpression with rfl | ⟨hnone, f, rfl⟩
        · exact Nat.zero_le _
        · rw [hnone]
          exact Nat.le_refl 1

theorem fault_of_mem_eventsOf
    {event : Event}
    (h : event ∈ c.eventsOf uses) :
    event.metric? = none ∨ ∃ f : Fault, event = f.counted := by
  induction uses generalizing c with
  | nil => cases h
  | cons u uses ih =>
      rw [eventsOf, List.mem_append] at h
      exact h.elim fault_of_mem_events ih

/-! ### Compiling at the beginning -/

/-- The second text is the first one, or it is ahead of it: it has been compiled, without a fault,
and the first one has not. -/
def Ahead (c c' : CronText) : Prop :=
  c' = c ∨
    c.compiled = none ∧ ∃ e, c.parser.parse c.text = .ok e ∧ c' = c.keeping (.ok e)

/-- A text that is ahead is used like the other one, and is ahead at most afterwards. -/
theorem Ahead.use
    (ahead : Ahead c c')
    (u : Use) :
    (c'.use u).reply = (c.use u).reply ∧
      (c'.use u).events = (c.use u).events ∧
      Ahead (c.use u).text (c'.use u).text := by
  rcases ahead with rfl | ⟨hnone, e, hparse, rfl⟩
  · exact ⟨rfl, rfl, Or.inl rfl⟩
  · have hexpression : c.expression = .ok (.ok e, c.keeping (.ok e), []) := by
      rw [expression, hnone]
      dsimp only
      rw [hparse]
      rfl
    have hkept : (c.keeping (.ok e)).expression = .ok (.ok e, c.keeping (.ok e), []) :=
      expression_of_kept rfl
    rw [use_of_expression hexpression, use_of_expression hkept]
    cases u with
    | setParser p => exact ⟨rfl, rfl, Or.inl rfl⟩
    | setBegin | setEnd | setWindow => exact ⟨rfl, rfl, Or.inr ⟨hnone, e, hparse, rfl⟩⟩
    | validate | expression => exact ⟨rfl, rfl, Or.inl rfl⟩
    | ask q i =>
        cases hlook : Schedule.lookAfter q i with
        | error x => simp [usedWith, hlook, Ahead, hnone, hparse]
        | ok after =>
            refine ⟨?_, ?_, Or.inl ?_⟩ <;> simp only [usedWith, hlook] <;> rfl

theorem Ahead.same
    (ahead : Ahead c c')
    (uses : List Use) :
    c'.replies uses = c.replies uses ∧ c'.eventsOf uses = c.eventsOf uses := by
  induction uses generalizing c c' with
  | nil => exact ⟨rfl, rfl⟩
  | cons u uses ih =>
      obtain ⟨hreply, hevents, hahead⟩ := ahead.use u
      obtain ⟨hreplies, hrest⟩ := ih hahead
      simp only [replies, eventsOf, hreply, hevents, hreplies, hrest, and_self]

/-- A text that is compiled at once is ahead of the same text that is not. -/
theorem ahead_of_compiledText
    {zones : Zones}
    {text : String}
    (h : compiledText text zones = .ok c) :
    Ahead (ofText text zones) c := by
  right
  refine ⟨rfl, ?_⟩
  unfold compiledText at h
  cases hexpression : (ofText text zones).expression with
  | error x => simp [hexpression] at h
  | ok found =>
      obtain ⟨r, c', events⟩ := found
      obtain rfl := eq_keeping_of_expression hexpression
      have honest := honest_expression (honest_ofText text zones) hexpression
      cases r with
      | error f => simp [hexpression] at h
      | ok e =>
          simp only [hexpression, Except.ok.injEq] at h
          exact ⟨e, honest (.ok e) rfl, h.symm⟩

/-- A text at its beginning: as it is given, or compiled at once without a fault. -/
inductive Begun
    (zones : Zones)
    (text : String) :
    CronText → Prop
  | lazily : Begun zones text (ofText text zones)
  | eagerly {c : CronText} (h : compiledText text zones = .ok c) : Begun zones text c

theorem Begun.ahead
    {zones : Zones}
    {text : String}
    (begun : Begun zones text c) :
    Ahead (ofText text zones) c := by
  cases begun with
  | lazily => exact Or.inl rfl
  | eagerly h => exact ahead_of_compiledText h

theorem Begun.honest
    {zones : Zones}
    {text : String}
    (begun : Begun zones text c) :
    c.Honest ∧ c.text = text := by
  rcases begun.ahead with rfl | ⟨-, e, hparse, rfl⟩
  · exact ⟨honest_ofText text zones, rfl⟩
  · exact ⟨honest_keeping hparse, rfl⟩

/-- **Compiling when it is needed is never stale, and happens once.**  Whatever is done with a
text, every reply is the one that compiling afresh would give, with the parser and the window that
were set last.  A text that was compiled at once cannot be told from one that was not.  Between
two settings of the parser the text is compiled in one use at most, unless it crashes the parser
that is set, and however many questions find the text faulty, one fault is counted at most. -/
theorem compiled_once_never_stale
    {zones : Zones}
    {text : String}
    (begun : Begun zones text c)
    (uses : List Use) :
    c.replies uses = (Settings.initial zones text).replies uses ∧
      c.replies uses = (ofText text zones).replies uses ∧
      c.eventsOf uses = (ofText text zones).eventsOf uses ∧
      ∀ before stretch after, uses = before ++ stretch ++ after → KeepsParser stretch →
        (∀ a u b v rest, stretch = a ++ u :: b ++ v :: rest →
          ((c.afterwards before).afterwards a).Compiles u →
          ((c.afterwards before).afterwards (a ++ u :: b)).Compiles v →
            ∃ x, (c.afterwards before).parser.parse text = .error (.crash x)) ∧
        ∀ j : Journal,
          (j.noteAll ((c.afterwards before).eventsOf stretch)).faultCount ≤ j.faultCount + 1 := by
  obtain ⟨hreplies, hevents⟩ := begun.ahead.same uses
  refine ⟨?_, hreplies, hevents, ?_⟩
  · rw [hreplies, replies_eq (honest_ofText text zones)]
    rfl
  · intro before stretch after _ still
    refine ⟨?_, ?_⟩
    · rintro a u b v rest rfl compiles again
      have ha : KeepsParser a := fun u hu => still u (by simp [hu])
      have hb : KeepsParser b := fun u hu => still u (by simp [hu])
      obtain ⟨honest, htext⟩ := begun.honest
      have honest' := honest_afterwards (honest_afterwards honest before) a
      rw [afterwards, List.foldl_append, List.foldl_cons] at again
      have hcrash := crash_of_compiles_twice honest' hb compiles again
      rwa [parser_afterwards _ ha, text_afterwards, text_afterwards, htext] at hcrash
    · intro j
      rw [Journal.faultCount_noteAll fun event h => fault_of_mem_eventsOf h]
      have hcount := counts_le (c := c.afterwards before) still
      split at hcount <;> omega

/-- A question, the layout with seconds, and then three questions. -/
def relaid : List Use :=
  [.ask .next .epoch, .setParser Parser.withSeconds, .validate, .ask .first .epoch, .expression]

/-- Five minutes past four, compiled at once, and then read with seconds, for which it has too few
fields: three questions find that, and one fault is counted at most. -/
theorem compiled_once_never_stale_relaid :
    ∃ c, compiledText "5 4 * * *" = .ok c ∧
      Begun .listed "5 4 * * *" c ∧
      c.replies relaid = (Settings.initial .listed "5 4 * * *").replies relaid ∧
      (c.replies relaid)[0]? = some (.answer (.ok (some ⟨14700 * 1000000000, by decide⟩))) ∧
      (c.replies relaid)[3]? = some (.answer (.ok none)) ∧
      KeepsParser (relaid.drop 2) ∧
      (Journal.noteAll {} ((c.afterwards (relaid.take 2)).eventsOf (relaid.drop 2))).faultCount ≤
        1 := by
  obtain ⟨c, hc⟩ : ∃ c, compiledText "5 4 * * *" = .ok c := ⟨_, rfl⟩
  have begun : Begun .listed "5 4 * * *" c := .eagerly hc
  obtain ⟨hreplies, -, -, honce⟩ := compiled_once_never_stale begun relaid
  have still : KeepsParser (relaid.drop 2) := by
    simp [KeepsParser, relaid]
  obtain ⟨-, hcount⟩ := honce (relaid.take 2) (relaid.drop 2) [] rfl still
  refine ⟨c, hc, begun, hreplies, ?_, ?_, still, hcount {}⟩
  · rw [hreplies]
    decide +kernel
  · rw [hreplies]
    decide +kernel

/-- A text whose spans add up to more than the longest one is compiled by each of two questions
that follow one another. -/
theorem recompiled_of_crash :
    let c := ofText "@every 18446744073709551615s 1000000000ns"
    KeepsParser [.ask .next .epoch, .validate] ∧
      c.Compiles (.ask .next .epoch) ∧
      (c.afterwards [.ask .next .epoch]).Compiles .validate := by
  intro c
  have hkept : (c.afterwards [.ask .next .epoch]).compiled.isNone = true := by
    decide +kernel
  refine ⟨by simp [KeepsParser], compiles_iff.2 ⟨rfl, _, rfl⟩, compiles_iff.2 ⟨?_, trivial⟩⟩
  exact Option.isNone_iff_eq_none.1 hkept

end CronText
end Timetable
