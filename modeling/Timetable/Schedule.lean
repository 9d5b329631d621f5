import Timetable.Schedule.CronText

/-!
# Schedules

A schedule answers when the next activation is.  It is a tree: the leaves are a
single activation, a cadence, an expression, a cadence or a text with a window
of its own, a plain list of instants, and whatever else somebody makes answer; an
inner node restricts a schedule to a window.  Some schedules change when they are
asked: a single activation is spent, a list is used up, a text is compiled.  So an
answer comes with the schedule as it is afterwards and with the events that the
question caused.

A schedule that has no answer of its own to the question for the first activation
at or after an instant looks after the nanosecond before it.
-/

namespace Timetable

/-- When activations happen, with what is left of it. -/
inductive Schedule where
  | once (instant : Instant) (fired : Bool)
  | every (c : Cadence)
  | expression (e : Expression)
  | interval (w : Window) (c : Cadence)
  | cron (c : CronText)
  | listed (rest : List Instant)
  /-- A schedule of other making, known by what it answers when it has been asked some
  questions, the last of them first. -/
  | foreign (asked : List (Question × Instant))
      (answer : List (Question × Instant) → Except Crash (Option Instant))
  | bounded (w : Window) (inner : Schedule)

/-- An answer, the schedule afterwards, and the events on the way. -/
structure Consulted (α : Type) where
  answer : Except Crash α
  schedule : Schedule
  events : List Event := []

namespace Schedule

/-- The instant after which to look for an answer to a question. -/
def lookAfter (q : Question) (i : Instant) : Except Crash Instant :=
  match q with
  | .next => .ok i
  | .first =>
      match i.before? with
      | some before => .ok before
      | none => .error .calendar

/-- The answer of an expression. -/
def askExpression (e : Expression) (q : Question) (i : Instant) :
    Except Crash (Option Instant) :=
  match q with
  | .next => e.next i
  | .first => e.first i

/-- The answer of a cadence. -/
def askCadence (c : Cadence) (q : Question) (i : Instant) : Option Instant :=
  match q with
  | .next => c.next i
  | .first => some i

/-- The answer of a window to a question for the activation after an instant. -/
def askWithin (w : Window) (ask : Question → Instant → Except Crash (Option Instant))
    (after : Instant) : Except Crash (Option Instant) :=
  match w.route after with
  | none => .ok none
  | some (q, i) => (ask q i).map w.keep

/-- The answer of a cadence with a window. -/
def askInterval (w : Window) (c : Cadence) (q : Question) (i : Instant) : Option Instant :=
  match q with
  | .next =>
      match w.route i with
      | none => none
      | some (q, i) => w.keep (askCadence c q i)
  | .first =>
      let start := match w.opens with
        | some b => if i < b then b else i
        | none => i
      w.keep (some start)

/-- The answer of a text, looking after an instant. -/
def askCron (c : CronText) (after : Instant) : Consulted (Option Instant) :=
  match c.expression with
  | .error x => ⟨.error x, .cron c, []⟩
  | .ok (.error f, c, events) => ⟨.ok none, .cron c, events ++ [c.complaint f]⟩
  | .ok (.ok e, c, events) => ⟨askWithin c.window (askExpression e) after, .cron c, events⟩

/-- Ask a schedule. -/
def ask : Schedule → Question → Instant → Consulted (Option Instant)
  | once instant fired, q, i =>
      match lookAfter q i with
      | .error x => ⟨.error x, once instant fired, []⟩
      | .ok _ => ⟨.ok (if fired then none else some instant), once instant true, []⟩
  | every c, q, i => ⟨.ok (askCadence c q i), every c, []⟩
  | expression e, q, i => ⟨askExpression e q i, expression e, []⟩
  | interval w c, q, i => ⟨.ok (askInterval w c q i), interval w c, []⟩
  | cron c, q, i =>
      match lookAfter q i with
      | .error x => ⟨.error x, cron c, []⟩
      | .ok after => askCron c after
  | listed rest, _, _ => ⟨.ok rest.head?, listed rest.tail, []⟩
  | foreign asked answer, q, i =>
      ⟨answer ((q, i) :: asked), foreign ((q, i) :: asked) answer, []⟩
  | bounded w inner, q, i =>
      match lookAfter q i with
      | .error x => ⟨.error x, bounded w inner, []⟩
      | .ok after =>
          match w.route after with
          | none => ⟨.ok none, bounded w inner, []⟩
          | some (q, i) =>
              let asked := ask inner q i
              ⟨asked.answer.map w.keep, bounded w asked.schedule, asked.events⟩

/-- The next activation after an instant. -/
def next (s : Schedule) (after : Instant) : Consulted (Option Instant) :=
  s.ask .next after

/-- The first activation at or after an instant. -/
def first (s : Schedule) (anchor : Instant) : Consulted (Option Instant) :=
  s.ask .first anchor

/-- Look for a fault of the schedule before it is used. -/
def validate : Schedule → Consulted (Option Fault)
  | cron c =>
      match c.expression with
      | .error x => ⟨.error x, cron c, []⟩
      | .ok (.error f, c, events) => ⟨.ok (some f), cron c, events⟩
      | .ok (.ok _, c, events) => ⟨.ok none, cron c, events⟩
  | bounded w inner =>
      let asked := inner.validate
      ⟨asked.answer, bounded w asked.schedule, asked.events⟩
  | s => ⟨.ok none, s, []⟩

/-- Compile every text of the schedule, so that it can be shown as it is. -/
def inspect (s : Schedule) : Consulted Unit :=
  { s.validate with answer := s.validate.answer.map fun _ => () }

/-- Feed activations back into a schedule, so many times at most; the list ends with
none where the schedule has ended.  A crash ends the computation. -/
def drain : Nat → Schedule → Instant → Consulted (List (Option Instant))
  | 0, s, _ => ⟨.ok [], s, []⟩
  | n + 1, s, after =>
      let asked := s.next after
      match asked.answer with
      | .error x => ⟨.error x, asked.schedule, asked.events⟩
      | .ok none => ⟨.ok [none], asked.schedule, asked.events⟩
      | .ok (some i) =>
          let more := drain n asked.schedule i
          ⟨more.answer.map (some i :: ·), more.schedule, asked.events ++ more.events⟩

/-- A schedule within another window is asked along the route of the window. -/
theorem next_bounded (w : Window) (inner : Schedule) (after : Instant) :
    (bounded w inner).next after =
      match w.route after with
      | none => ⟨.ok none, bounded w inner, []⟩
      | some (q, i) =>
          ⟨(inner.ask q i).answer.map w.keep, bounded w (inner.ask q i).schedule,
            (inner.ask q i).events⟩ := by
  rfl

end Schedule
end Timetable
