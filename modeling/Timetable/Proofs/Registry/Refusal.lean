import Timetable.Proofs.Registry.Removal
import Timetable.Proofs.Schedule.Texts

/-!
# Refused registrations

A job is refused before anything is changed: a schedule that cannot be used never
costs the timer that stands under the key.  What is accepted has been looked at, so
its text has been compiled, and the timer that is armed for it uses what came of
that.

Main results:

* a timer's schedule changes only by being asked (becomes_of_acts);
* a refusal leaves everything as it was but the journal, and there all figures but
  those of faults (unharmed_add, unharmed_addText);
* a job is refused exactly if the text of its schedule does not compile, and no
  schedule that is accepted is ever found not to compile (refused_or_settled).
-/

namespace Timetable

namespace Executor

theorem Drive.becomes
    {e : Executor}
    {t t' : Timer}
    (h : e.Drive t t') :
    Relation.ReflTransGen Schedule.Becomes t.schedule t'.schedule := by
  cases h with
  | crash | exhaust | arm => exact .single ⟨t.previous, rfl⟩
  | begin | look | close | resume | wake | count | drop | activate => exact .refl

/-- A timer's schedule changes only by being asked for the next activation. -/
theorem becomes_of_acts
    {c : Chain}
    {e e' : Executor}
    (h : Acts c e e')
    {n : Nat}
    {t : Timer}
    (ht : e.timers[n]? = some t) :
    ∃ t', e'.timers[n]? = some t' ∧
      Relation.ReflTransGen Schedule.Becomes t.schedule t'.schedule := by
  induction h with
  | refl => exact ⟨t, ht, .refl⟩
  | tail _ act ih =>
      obtain ⟨u, hu, hbecomes⟩ := ih
      rcases act.own_or_beside n with hown | ⟨hbeside, -⟩
      · obtain ⟨u', hdriven⟩ := driven_of_entry hu hown
        exact ⟨u', hdriven.entry hu, hbecomes.trans hdriven.drive.becomes⟩
      · obtain ⟨closed, hu'⟩ := hbeside.timer u hu
        exact ⟨_, hu', hbecomes⟩

end Executor

namespace Registry

/-- Nothing has changed but the journal, and there no figure but those of faults: the map, the
timers with their handles and schedules, the jobs and the gauges are as before. -/
structure Unharmed (g g' : Registry) : Prop where
  same : ∃ journal, g' = g.within { g.executor with journal := journal }
  figures : ∀ m, (∀ code, m ≠ .faults code) →
    g'.executor.journal.value m = g.executor.journal.value m

theorem Unharmed.refl (g : Registry) : g.Unharmed g :=
  ⟨⟨g.executor.journal, rfl⟩, fun _ _ => rfl⟩

/-- Events that count faults or are lines of the log harm nothing. -/
theorem unharmed_noteAll
    (g : Registry)
    {events : List Event}
    (faults : ∀ event ∈ events, event.metric? = none ∨ ∃ f : Fault, event = f.counted) :
    g.Unharmed (g.onExecutor (·.noteAll events)) := by
  refine ⟨⟨g.executor.journal.noteAll events, rfl⟩, ?_⟩
  intro m hm
  refine Journal.value_noteAll_of_untouched ?_ g.executor.journal
  intro event hevent htouched
  rcases faults event hevent with hnone | ⟨f, rfl⟩
  · rw [hnone] at htouched
    cases htouched
  · exact hm f.code (Option.some.inj htouched).symm

variable {g : Registry} {key : String} {value : Value} {script : Script}

/-- A job with an empty key is refused before anybody looks at its schedule. -/
theorem add_of_empty
    (g : Registry)
    (value : Value)
    (script : Script)
    (schedule : Schedule) :
    g.add "" value script schedule = (.error (.crash .emptyKey), g) :=
  if_pos rfl

/-- A job with a key is refused exactly for what is wrong with the text of its schedule. -/
theorem add_refused_iff
    {schedule : Schedule}
    {refusal : Refusal}
    (named : key ≠ "")
    (honest : schedule.Honest) :
    (g.add key value script schedule).1 = .error refusal ↔
      ∃ c, schedule.text? = some c ∧ c.parser.parse c.text = .error refusal := by
  have hanswer := honest.answer_validate
  unfold Schedule.verdict at hanswer
  unfold add
  rw [if_neg named]
  dsimp only
  rw [hanswer]
  cases schedule.text? with
  | none => simp
  | some c =>
      cases hparse : c.parser.parse c.text with
      | ok e => simp [hparse]
      | error r => cases r <;> simp [hparse]

/-- A job for a text is refused for what is wrong with the text, and then for an empty key. -/
theorem addText_refused_iff
    {text : String}
    {refusal : Refusal} :
    (g.addText key value script text).1 = .error refusal ↔
      g.parser.parse text = .error refusal ∨
        (∃ e, g.parser.parse text = .ok e) ∧ key = "" ∧ refusal = .crash .emptyKey := by
  unfold addText
  cases hparse : g.parser.parse text with
  | error r => cases r <;> simp
  | ok e =>
      have hsound : (Schedule.expression e).Honest := Schedule.honest_of_text? rfl
      by_cases hkey : key = ""
      · subst hkey
        simp [add_of_empty, eq_comm]
      · have hrefused : (g.add key value script (.expression e)).1 = .error refusal ↔
            ∃ c, (Schedule.expression e).text? = some c ∧
              c.parser.parse c.text = .error refusal :=
          add_refused_iff hkey hsound
        simpa [hkey, Schedule.text?] using hrefused

/-- **A refused job leaves everything as it was.** -/
theorem unharmed_add
    {schedule : Schedule}
    {refusal : Refusal}
    (refused : (g.add key value script schedule).1 = .error refusal) :
    g.Unharmed (g.add key value script schedule).2 := by
  have hevents : ∀ event ∈ schedule.validate.events,
      event.metric? = none ∨ ∃ f : Fault, event = f.counted := fun event h =>
    Or.inr (Schedule.fault_of_mem_validate h)
  unfold add at refused ⊢
  split at refused
  · rename_i hkey
    rw [if_pos hkey]
    exact .refl g
  · rename_i hkey
    rw [if_neg hkey]
    dsimp only at refused ⊢
    split at refused
    · exact g.unharmed_noteAll hevents
    · rename_i f _
      have hboth : ∀ event ∈ schedule.validate.events ++ [f.report.logged],
          event.metric? = none ∨ ∃ f : Fault, event = f.counted := by
        intro event h
        rcases List.mem_append.1 h with h | h
        · exact hevents event h
        · obtain rfl := List.mem_singleton.1 h
          exact Or.inl rfl
      have hnoted := g.unharmed_noteAll hboth
      simpa [Registry.onExecutor, Executor.noteAll, Executor.note, Journal.noteAll] using hnoted
    · cases refused

/-- A refused text leaves everything as it was. -/
theorem unharmed_addText
    {text : String}
    {refusal : Refusal}
    (refused : (g.addText key value script text).1 = .error refusal) :
    g.Unharmed (g.addText key value script text).2 := by
  unfold addText at refused ⊢
  cases hparse : g.parser.parse text with
  | ok e =>
      simp only [hparse] at refused ⊢
      exact unharmed_add refused
  | error r =>
      cases r with
      | crash x => exact .refl g
      | fault f =>
          refine g.unharmed_noteAll ?_
          intro event h
          rcases List.mem_cons.1 h with rfl | h
          · exact Or.inr ⟨f, rfl⟩
          · obtain rfl := List.mem_singleton.1 h
            exact Or.inl rfl

/-- The timer that is armed for a job stands under its key, with the schedule of the job. -/
theorem register_spec
    (g : Registry)
    (key : String)
    (value : Value)
    (script : Script)
    (schedule : Schedule) :
    let g' := g.register key value script schedule
    let n := g.executor.timers.length
    (key, n) ∈ g'.entries ∧
      ∃ t, g'.executor.timers[n]? = some t ∧ t.schedule = schedule := by
  obtain ⟨timer, htimers, hschedule, hopen⟩ : ∃ timer : Timer,
      ((g.replace key).armed key value script schedule).executor.timers =
        (g.replace key).executor.timers ++ [timer] ∧
      timer.schedule = schedule ∧ timer.closed = false := ⟨_, rfl, rfl, rfl⟩
  have htimer : ((g.replace key).armed key value script schedule).executor.timers[
      g.executor.timers.length]? = some timer := by
    rw [htimers, ← g.length_timers_replace key]
    exact List.getElem?_concat_length
  have hentries : ((g.replace key).armed key value script schedule).entries =
      (g.replace key).entries ++ [(key, g.executor.timers.length)] := by
    rw [← g.length_timers_replace key]
    rfl
  refine ⟨?_, timer, htimer, hschedule⟩
  show _ ∈ ((g.replace key).armed key value script schedule).liveEntries
  refine List.mem_filter.2 ⟨?_, ?_⟩
  · rw [hentries]
    exact List.mem_append_right _ (List.mem_singleton.2 rfl)
  · simp [Executor.isClosed, htimer, hopen]

/-- A timer has been armed under a key, and in every later state its schedule is one that has
only been asked since, keeps the expression that its parser reads, and causes no event, least
of all the one that its text does not compile. -/
def ArmedSettled
    (g : Registry)
    (key : String)
    (schedule : Schedule)
    (n : Nat) :
    Prop :=
  (key, n) ∈ g.entries ∧
    ∀ g', g.Reaches g' → ∃ t, g'.executor.timers[n]? = some t ∧
      Relation.ReflTransGen Schedule.Becomes schedule t.schedule ∧
      t.schedule.Settled ∧
      ∀ q i, (t.schedule.ask q i).events = []

theorem armedSettled_register
    (g : Registry)
    (key : String)
    (value : Value)
    (script : Script)
    {schedule : Schedule}
    (settled : schedule.Settled) :
    (g.register key value script schedule).ArmedSettled key schedule
      g.executor.timers.length := by
  obtain ⟨hentry, t, ht, rfl⟩ := g.register_spec key value script schedule
  refine ⟨hentry, ?_⟩
  intro g' hreaches
  obtain ⟨t', ht', hbecomes⟩ := Executor.becomes_of_acts hreaches.acts ht
  have hsettled := settled.becomes hbecomes
  exact ⟨t', ht', hbecomes, hsettled, fun q i => (hsettled.ask q i).2⟩

/-- **A job is refused exactly if the text of its schedule does not compile with its parser**,
under however many windows it stands; a text by itself is refused exactly if the registry's
parser does not read it.  A refusal, that of an empty key included, leaves everything as it
was.  What is accepted is never found not to compile, whatever happens later. -/
theorem refused_or_settled
    (g : Registry)
    (key : String)
    (value : Value)
    (script : Script)
    {schedule : Schedule}
    (honest : schedule.Honest)
    (text : String) :
    (key ≠ "" → ∀ refusal,
        ((g.add key value script schedule).1 = .error refusal ↔
          ∃ c, schedule.text? = some c ∧ c.parser.parse c.text = .error refusal) ∧
        ((g.addText key value script text).1 = .error refusal ↔
          g.parser.parse text = .error refusal)) ∧
      (key = "" →
        (g.add key value script schedule).1 = .error (.crash .emptyKey) ∧
        ∀ refusal, (g.addText key value script text).1 = .error refusal ↔
          g.parser.parse text = .error refusal ∨
            (∃ e, g.parser.parse text = .ok e) ∧ refusal = .crash .emptyKey) ∧
      (∀ refusal, (g.add key value script schedule).1 = .error refusal →
        g.Unharmed (g.add key value script schedule).2) ∧
      (∀ refusal, (g.addText key value script text).1 = .error refusal →
        g.Unharmed (g.addText key value script text).2) ∧
      ((g.add key value script schedule).1 = .ok () →
        (g.add key value script schedule).2.ArmedSettled key schedule.validate.schedule
          g.executor.timers.length) ∧
      ((g.addText key value script text).1 = .ok () →
        ∃ e, g.parser.parse text = .ok e ∧
          (g.addText key value script text).2.ArmedSettled key (.expression e)
            g.executor.timers.length) := by
  refine ⟨?_, ?_, fun refusal => unharmed_add, fun refusal => unharmed_addText, ?_, ?_⟩
  · intro named refusal
    refine ⟨add_refused_iff named honest, ?_⟩
    rw [addText_refused_iff]
    exact or_iff_left fun h => named h.2.1
  · rintro rfl
    refine ⟨by rw [add_of_empty], ?_⟩
    intro refusal
    rw [addText_refused_iff]
    simp
  · intro accepted
    have hfaultless : schedule.validate.answer = .ok none := by
      unfold add at accepted
      split at accepted
      · cases accepted
      · dsimp only at accepted
        split at accepted
        · cases accepted
        · cases accepted
        · assumption
    rw [add_eq_register accepted]
    exact armedSettled_register _ key value script (honest.settled_validate hfaultless)
  · intro accepted
    unfold addText at accepted ⊢
    cases hparse : g.parser.parse text with
    | error r => cases r <;> simp [hparse] at accepted
    | ok e =>
        simp only [hparse] at accepted ⊢
        refine ⟨e, rfl, ?_⟩
        rw [add_eq_register accepted]
        exact armedSettled_register _ key value script (Schedule.settled_of_text? rfl)

/-- A text in a window, which is compiled when it is needed. -/
def lazily (text : String) : Schedule :=
  .bounded .unbounded (.cron (.ofText text))

/-- A job for a misspelt text is refused, and the job under the key goes on as before; one for a
text in order takes its place. -/
theorem refused_or_settled_cleaning :
    (lazily "5 j * * *").Honest ∧
      (∃ f, (cleaning.add "cleanup" .null (Script.ofList []) (lazily "5 j * * *")).1 =
        .error (.fault f)) ∧
      cleaning.Unharmed
        (cleaning.add "cleanup" .null (Script.ofList []) (lazily "5 j * * *")).2 ∧
      (cleaning.add "cleanup" .null (Script.ofList []) (lazily "5 4 * * *")).1 = .ok () ∧
      (cleaning.add "cleanup" .null (Script.ofList []) (lazily "5 4 * * *")).2.ArmedSettled
        "cleanup" (lazily "5 4 * * *").validate.schedule 1 := by
  have honest : ∀ text, (lazily text).Honest := fun text =>
    Schedule.honest_cron_iff.2 (CronText.honest_ofText text _)
  have hrefused : ∀ text refusal, Parser.standard.parse text = .error refusal →
      (cleaning.add "cleanup" .null (Script.ofList []) (lazily text)).1 = .error refusal :=
    fun text refusal hparse =>
      (((refused_or_settled cleaning "cleanup" .null (Script.ofList []) (honest text) "").1
        (by decide) refusal).1).2 ⟨_, rfl, hparse⟩
  obtain ⟨f, hf⟩ : ∃ f, Parser.standard.parse "5 j * * *" = .error (.fault f) := ⟨_, rfl⟩
  obtain ⟨-, -, hunharmed, -⟩ :=
    refused_or_settled cleaning "cleanup" .null (Script.ofList []) (honest "5 j * * *") ""
  obtain ⟨-, -, -, -, hsettled, -⟩ :=
    refused_or_settled cleaning "cleanup" .null (Script.ofList []) (honest "5 4 * * *") ""
  have haccepted : (cleaning.add "cleanup" .null (Script.ofList []) (lazily "5 4 * * *")).1 =
      .ok () := rfl
  have hlength : cleaning.executor.timers.length = 1 := by decide +kernel
  refine ⟨honest _, ⟨f, hrefused _ _ hf⟩, hunharmed _ (hrefused _ _ hf), haccepted, ?_⟩
  rw [← hlength]
  exact hsettled haccepted

end Registry
end Timetable
