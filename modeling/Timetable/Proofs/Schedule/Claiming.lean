import Timetable.Proofs.Schedule.Nesting

/-!
# Claiming a single activation

A single activation in windows may be asked for by many callers, and in any order.
All that they share is whether it has been claimed, and a question finds that out
and claims it in one step.  So the questions act one after the other, in the order
in which they come to the activation, and nothing else of their callers matters.

A question that is turned away by a window does not come so far and claims nothing.
The first one that is let in by all windows claims the activation.  It gets the
activation if it lies in all windows; if not, nobody ever gets it.

Main results:

* a question acts as one for the next activation after some instant
  (ask_of_lookAfter);
* what is turned away changes nothing, and what is let in claims (ask_of_turnedAway,
  ask_of_letIn);
* the reply that has the activation is the one to the first question that is let in
  (replies_eq_some_iff);
* a single activation in windows is answered once at most, and when (claimed_once).
-/

namespace Timetable

namespace Schedule

/-! ### Questions one after the other -/

/-- What the schedule replies to questions that are put one after the other. -/
def replies (s : Schedule) : List (Question × Instant) → List (Except Crash (Option Instant))
  | [] => []
  | call :: calls =>
      (s.ask call.1 call.2).answer :: (s.ask call.1 call.2).schedule.replies calls

/-- The schedule after it has been asked the questions. -/
def afterwards
    (s : Schedule)
    (calls : List (Question × Instant)) :
    Schedule :=
  calls.foldl (fun s call => (s.ask call.1 call.2).schedule) s

theorem length_replies
    (s : Schedule)
    (calls : List (Question × Instant)) :
    (s.replies calls).length = calls.length := by
  induction calls generalizing s with
  | nil => rfl
  | cons call calls ih => rw [replies, List.length_cons, ih, List.length_cons]

/-- A question above the first instant of the calendar looks after some instant. -/
theorem exists_lookAfter
    {q : Question}
    {i : Instant}
    (above : firstNano < i.nanos) :
    ∃ p, lookAfter q i = .ok p := by
  cases q with
  | next => exact ⟨i, rfl⟩
  | first =>
      have hlast := i.inCalendar.2
      have hbefore : i.before? = some ⟨i.nanos + -1, by omega, by omega⟩ :=
        Instant.shift?_eq_some.2 rfl
      exact ⟨_, by rw [lookAfter, hbefore]⟩

section Claiming

variable {a i p : Instant} {q : Question} {w : Window} {ws : List Window} {fired : Bool}
  {call : Question × Instant} {calls : List (Question × Instant)}

/-- Whatever it is asked, a single activation in windows is asked for the next activation after
some instant. -/
theorem ask_of_lookAfter
    (look : lookAfter q i = .ok p) :
    ((once a fired).within ws).ask q i = ((once a fired).within ws).next p := by
  cases ws using List.reverseRecOn with
  | nil => simp only [within, List.foldl_nil, next, ask, look, lookAfter_next]
  | append_singleton ws w _ =>
      rw [within_append_one]
      simp only [next, ask, look, lookAfter_next]

/-- A window that is not over hands the question on to what stands in it. -/
theorem next_bounded_of_not_isOver
    (running : w.isOver i = false) :
    (bounded w ((once a fired).within ws)).next i =
      { answer := (((once a fired).within ws).next (w.startAfter i)).answer.map w.keep
        schedule := bounded w (((once a fired).within ws).next (w.startAfter i)).schedule
        events := (((once a fired).within ws).next (w.startAfter i)).events } := by
  rw [next_bounded]
  rcases Window.route_of_not_isOver running with hroute | ⟨b, hroute, hbefore⟩
  · rw [hroute]
    rfl
  · have hlook : lookAfter .first b = .ok (w.startAfter i) := by
      rw [lookAfter, hbefore]
    rw [hroute]
    dsimp only
    rw [ask_of_lookAfter hlook]

/-- Closed windows answer that there is nothing and leave the activation as it is.  Otherwise it is
claimed, and what of it lies in all windows is the answer. -/
theorem next_once
    (a : Instant)
    (fired : Bool)
    (ws : List Window)
    (i : Instant) :
    (Closed ws i →
        ((once a fired).within ws).next i = ⟨.ok none, (once a fired).within ws, []⟩) ∧
      (¬ Closed ws i →
        ((once a fired).within ws).next i =
          ⟨.ok ((Window.meetAll ws).keep (if fired then none else some a)),
            (once a true).within ws, []⟩) := by
  induction ws using List.reverseRecOn generalizing i with
  | nil =>
      have hkeep : ∀ x, (Window.meetAll []).keep x = x := by
        intro x
        cases x <;> rfl
      refine ⟨fun hclosed => absurd hclosed (by simp [Closed]), fun _ => ?_⟩
      rw [hkeep]
      rfl
  | append_singleton ws w ih =>
      obtain ⟨hclosed, hopen⟩ := ih (w.startAfter i)
      rw [within_append_one, within_append_one, closed_append_one_iff]
      cases hover : w.isOver i with
      | true =>
          refine ⟨fun _ => ?_, fun h => absurd (Or.inl rfl) h⟩
          rw [next_bounded, Window.route, if_pos hover]
      | false =>
          rw [next_bounded_of_not_isOver hover]
          simp only [Bool.false_eq_true, false_or]
          refine ⟨fun h => ?_, fun h => ?_⟩
          · rw [hclosed h]
            rfl
          · rw [hopen h, Window.meetAll_append_one, Window.keep_meet]
            rfl

/-- One of the windows turns the question away. -/
def TurnedAway
    (ws : List Window)
    (call : Question × Instant) :
    Prop :=
  ∃ p, lookAfter call.1 call.2 = .ok p ∧ Closed ws p

/-- What is turned away changes nothing. -/
theorem ask_of_turnedAway
    (turned : TurnedAway ws call) :
    ((once a fired).within ws).ask call.1 call.2 =
      ⟨.ok none, (once a fired).within ws, []⟩ := by
  obtain ⟨p, hlook, hclosed⟩ := turned
  rw [ask_of_lookAfter hlook]
  exact (next_once a fired ws p).1 hclosed

/-- What is let in claims the activation. -/
theorem ask_of_letIn
    (above : firstNano < call.2.nanos)
    (letIn : ¬ TurnedAway ws call) :
    ((once a fired).within ws).ask call.1 call.2 =
      ⟨.ok ((Window.meetAll ws).keep (if fired then none else some a)),
        (once a true).within ws, []⟩ := by
  obtain ⟨p, hlook⟩ := exists_lookAfter (q := call.1) above
  rw [ask_of_lookAfter hlook]
  exact (next_once a fired ws p).2 fun hclosed => letIn ⟨p, hlook, hclosed⟩

theorem keep_meetAll_eq_some_iff {r : Instant} :
    (Window.meetAll ws).keep (some a) = some r ↔
      r = a ∧ ∀ w ∈ ws, w.contains a = true := by
  rw [Window.keep_eq_some_iff, Option.some.injEq, Window.contains_meetAll_iff, eq_comm]
  constructor
  · rintro ⟨rfl, h⟩
    exact ⟨rfl, h⟩
  · rintro ⟨rfl, h⟩
    exact ⟨rfl, h⟩

/-- What has been claimed is not answered again. -/
theorem replies_of_claimed
    (above : ∀ call ∈ calls, firstNano < call.2.nanos) :
    ((once a true).within ws).replies calls = List.replicate calls.length (.ok none) := by
  induction calls with
  | nil => rfl
  | cons call calls ih =>
      rw [List.forall_mem_cons] at above
      have hask : ((once a true).within ws).ask call.1 call.2 =
          ⟨.ok none, (once a true).within ws, []⟩ := by
        by_cases hturned : TurnedAway ws call
        · exact ask_of_turnedAway hturned
        · exact ask_of_letIn above.1 hturned
      rw [replies, hask, ih above.2, List.length_cons, List.replicate_succ]

/-- **The activation is the reply to the first question that is let in**, if it lies in all
windows. -/
theorem replies_eq_some_iff
    {n : Nat}
    {r : Instant}
    (above : ∀ call ∈ calls, firstNano < call.2.nanos) :
    (((once a false).within ws).replies calls)[n]? = some (.ok (some r)) ↔
      (r = a ∧ ∀ w ∈ ws, w.contains a = true) ∧
        (∃ call, calls[n]? = some call ∧ ¬ TurnedAway ws call) ∧
        ∀ m < n, ∀ call, calls[m]? = some call → TurnedAway ws call := by
  induction calls generalizing n with
  | nil => simp [replies]
  | cons call calls ih =>
      rw [List.forall_mem_cons] at above
      rw [replies]
      by_cases hturned : TurnedAway ws call
      · rw [ask_of_turnedAway hturned]
        cases n with
        | zero => simp [hturned]
        | succ n =>
            rw [List.getElem?_cons_succ, List.getElem?_cons_succ, ih above.2]
            refine and_congr_right fun _ => and_congr_right fun _ => ⟨?_, ?_⟩
            · intro h m hm
              cases m with
              | zero => simpa using hturned
              | succ m => simpa using h m (by omega)
            · intro h m hm
              simpa using h (m + 1) (by omega)
      · rw [ask_of_letIn above.1 hturned]
        cases n with
        | zero => simp [hturned, keep_meetAll_eq_some_iff]
        | succ n =>
            rw [List.getElem?_cons_succ, replies_of_claimed above.2]
            constructor
            · intro h
              simp [List.getElem?_replicate] at h
            · rintro ⟨-, -, h⟩
              exact absurd (h 0 (by omega) call rfl) hturned

/-- No question is replied to with a crash. -/
theorem exists_of_mem_replies
    {reply : Except Crash (Option Instant)}
    (above : ∀ call ∈ calls, firstNano < call.2.nanos)
    (h : reply ∈ ((once a fired).within ws).replies calls) :
    ∃ answer, reply = .ok answer := by
  induction calls generalizing fired with
  | nil => cases h
  | cons call calls ih =>
      rw [List.forall_mem_cons] at above
      rw [replies, List.mem_cons] at h
      by_cases hturned : TurnedAway ws call
      · rw [ask_of_turnedAway hturned] at h
        exact h.elim (fun heq => ⟨_, heq⟩) (ih above.2)
      · rw [ask_of_letIn above.1 hturned] at h
        exact h.elim (fun heq => ⟨_, heq⟩) (ih above.2)

/-- Whatever it has been asked, it is the same activation in the same windows. -/
theorem afterwards_once
    (above : ∀ call ∈ calls, firstNano < call.2.nanos) :
    ∃ fired', ((once a fired).within ws).afterwards calls = (once a fired').within ws := by
  induction calls generalizing fired with
  | nil => exact ⟨fired, rfl⟩
  | cons call calls ih =>
      rw [List.forall_mem_cons] at above
      rw [afterwards, List.foldl_cons]
      by_cases hturned : TurnedAway ws call
      · rw [ask_of_turnedAway hturned]
        exact ih above.2
      · rw [ask_of_letIn above.1 hturned]
        exact ih above.2

/-- Windows that hold the activation turn away only what comes after the end of one of them. -/
theorem closed_iff_of_contains
    (inside : ∀ w ∈ ws, w.contains a = true) :
    Closed ws i ↔ ∃ w ∈ ws, w.isOver i = true := by
  refine or_iff_left fun hmissed => hmissed ?_
  rw [List.pairwise_iff_forall_sublist]
  intro inner outer hsub hmisses
  obtain ⟨e, b, hcloses, hopens, he⟩ := hmisses
  have hend := (Window.contains_iff.1 (inside inner (hsub.subset (by simp)))).2 e hcloses
  have hbegin := (Window.contains_iff.1 (inside outer (hsub.subset (by simp)))).1 b hopens
  rw [Instant.le_iff] at hend hbegin
  omega

/-- A question for the next activation that is put before the end of all windows is let in. -/
theorem not_turnedAway_of_running
    {prev : Instant}
    (inside : ∀ w ∈ ws, w.contains a = true)
    (running : ∀ w ∈ ws, w.isOver prev = false) :
    ¬ TurnedAway ws (.next, prev) := by
  rintro ⟨p, hlook, hclosed⟩
  obtain rfl : prev = p := Except.ok.inj hlook
  obtain ⟨w, hw, hover⟩ := (closed_iff_of_contains inside).1 hclosed
  simp [running w hw] at hover

/-- A reply has nothing, or the activation, which then lies in all windows. -/
theorem reply_cases
    {reply : Except Crash (Option Instant)}
    (above : ∀ call ∈ calls, firstNano < call.2.nanos)
    (h : reply ∈ ((once a false).within ws).replies calls) :
    reply = .ok none ∨ reply = .ok (some a) ∧ ∀ w ∈ ws, w.contains a = true := by
  obtain ⟨answer, rfl⟩ := exists_of_mem_replies above h
  cases answer with
  | none => exact Or.inl rfl
  | some r =>
      obtain ⟨n, hn⟩ := List.mem_iff_getElem?.1 h
      obtain ⟨⟨rfl, inside⟩, -⟩ := (replies_eq_some_iff above).1 hn
      exact Or.inr ⟨rfl, inside⟩

/-- Two replies with an activation are the same reply. -/
theorem reply_unique
    {m n : Nat}
    {i j : Instant}
    (above : ∀ call ∈ calls, firstNano < call.2.nanos)
    (hm : (((once a false).within ws).replies calls)[m]? = some (.ok (some i)))
    (hn : (((once a false).within ws).replies calls)[n]? = some (.ok (some j))) :
    m = n := by
  obtain ⟨-, ⟨callm, hcallm, hinm⟩, hbeforem⟩ := (replies_eq_some_iff above).1 hm
  obtain ⟨-, ⟨calln, hcalln, hinn⟩, hbeforen⟩ := (replies_eq_some_iff above).1 hn
  rcases Nat.lt_trichotomy m n with hlt | heq | hgt
  · exact absurd (hbeforen m hlt callm hcallm) hinm
  · exact heq
  · exact absurd (hbeforem n hgt calln hcalln) hinn

/-- What is let in gets an activation that lies in all windows, unless an earlier question has got
it. -/
theorem gets_iff_of_letIn
    {n : Nat}
    (above : ∀ call ∈ calls, firstNano < call.2.nanos)
    (inside : ∀ w ∈ ws, w.contains a = true)
    (hcall : calls[n]? = some call)
    (letIn : ¬ TurnedAway ws call) :
    (((once a false).within ws).replies calls)[n]? = some (.ok (some a)) ↔
      ∀ m < n, (((once a false).within ws).replies calls)[m]? ≠ some (.ok (some a)) := by
  constructor
  · intro hn m hm hearlier
    exact absurd (reply_unique above hearlier hn) (Nat.ne_of_lt hm)
  · intro hnone
    refine (replies_eq_some_iff above).2 ⟨⟨rfl, inside⟩, ⟨call, hcall, letIn⟩, ?_⟩
    intro m
    -- the first question that was let in would have got the activation
    induction m using Nat.strong_induction_on with
    | _ m ih =>
        intro hm earlier hearlier
        by_contra hin
        exact hnone m hm ((replies_eq_some_iff above).2 ⟨⟨rfl, inside⟩, ⟨earlier, hearlier, hin⟩,
          fun k hk => ih k hk (Nat.lt_trans hk hm)⟩)

end Claiming

/-- **A single activation in windows is claimed once.**  Of all questions that are put to it, by
whomever and in whatever order, one at most gets the activation, and then that lies in all
windows.  If it does, a question for the next activation that is not put after the end of any
window gets it, unless an earlier question has got it; if it does not, nobody gets anything.  A
question that comes after the end of the outermost window leaves everything as it is. -/
theorem claimed_once
    (a : Instant)
    (ws : List Window)
    (calls : List (Question × Instant))
    (above : ∀ call ∈ calls, firstNano < call.2.nanos) :
    let s := (once a false).within ws
    let replies := s.replies calls
    replies.length = calls.length ∧
      (∀ (m n : Nat) (i j : Instant),
        replies[m]? = some (.ok (some i)) → replies[n]? = some (.ok (some j)) → m = n) ∧
      (∀ reply ∈ replies,
        reply = .ok none ∨ reply = .ok (some a) ∧ ∀ w ∈ ws, w.contains a = true) ∧
      ((∀ w ∈ ws, w.contains a = true) →
        ∀ (n : Nat) (prev : Instant), calls[n]? = some (.next, prev) →
          (∀ w ∈ ws, w.isOver prev = false) →
            (replies[n]? = some (.ok (some a)) ↔
              ∀ m < n, replies[m]? ≠ some (.ok (some a)))) ∧
      ((∃ w ∈ ws, w.contains a = false) → ∀ reply ∈ replies, reply = .ok none) ∧
      ∀ before q i after p w,
        calls = before ++ (q, i) :: after →
        ws.getLast? = some w →
        lookAfter q i = .ok p →
        w.isOver p = true →
          (s.afterwards before).ask q i = ⟨.ok none, s.afterwards before, []⟩ := by
  intro s replies
  refine ⟨length_replies s calls, fun m n i j hm hn => reply_unique above hm hn,
    fun reply h => reply_cases above h, ?_, ?_, ?_⟩
  · intro inside n prev hcall running
    exact gets_iff_of_letIn above inside hcall (not_turnedAway_of_running inside running)
  · rintro ⟨w, hw, houtside⟩ reply hmem
    rcases reply_cases above hmem with hnone | ⟨-, inside⟩
    · exact hnone
    · simp [inside w hw] at houtside
  · intro before q i after p w hcalls hlast hlook hover
    have habove : ∀ call ∈ before, firstNano < call.2.nanos := fun call hcall =>
      above call (by simp [hcalls, hcall])
    have turned : TurnedAway ws (q, i) :=
      ⟨p, hlook, Or.inl ⟨w, List.mem_of_getLast? hlast, hover⟩⟩
    obtain ⟨fired, hfired⟩ : ∃ fired, s.afterwards before = (once a fired).within ws :=
      afterwards_once habove
    rw [hfired]
    exact ask_of_turnedAway turned

/-- A question two hours later, one for the first activation of the hour, and one from before. -/
def threeQuestions : List (Question × Instant) :=
  [(.next, ⟨7200 * 1000000000, by decide⟩), (.first, .epoch), (.next, ⟨-1000000000, by decide⟩)]

/-- Half an hour into the first hour.  The question that comes too late does not get it, and the
last one no more. -/
theorem claimed_once_halfPast :
    let a : Instant := ⟨1800 * 1000000000, by decide⟩
    let s := (once a false).within firstHour
    (∀ call ∈ threeQuestions, firstNano < call.2.nanos) ∧
      (∀ w ∈ firstHour, w.contains a = true) ∧
      s.replies threeQuestions = [.ok none, .ok (some a), .ok none] ∧
      (s.replies threeQuestions)[1]? = some (.ok (some a)) ∧
      (s.replies threeQuestions)[2]? ≠ some (.ok (some a)) ∧
      s.ask .next ⟨7200 * 1000000000, by decide⟩ = ⟨.ok none, s, []⟩ := by
  intro a s
  have above : ∀ call ∈ threeQuestions, firstNano < call.2.nanos := by decide
  have inside : ∀ w ∈ firstHour, w.contains a = true := by decide
  have hreplies : s.replies threeQuestions = [.ok none, .ok (some a), .ok none] := rfl
  obtain ⟨-, -, -, hgets, -, hlate⟩ := claimed_once a firstHour threeQuestions above
  have hlast := hgets inside 2 _ rfl (by decide)
  refine ⟨above, inside, hreplies, by rw [hreplies]; rfl, ?_, ?_⟩
  · intro h
    exact hlast.1 h 1 (by decide) (by rw [hreplies]; rfl)
  · exact hlate [] _ _ _ _ _ rfl rfl rfl (by decide)

end Schedule
end Timetable
