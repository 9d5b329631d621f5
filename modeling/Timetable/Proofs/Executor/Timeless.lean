import Timetable.Proofs.Executor.Changes

/-!
# Moves take no time

A move of a task happens at one stroke: the clock does not go on meanwhile, the
wall shows what it showed, no token is made or cancelled, and no signal is given
another one.  Time passes between moves, and tokens belong to those who act from
outside.

Main results:

* this holds of the moves of runs (timeless_of_mem_runMoves);
* it holds of the moves of those who wait for trackers (timeless_of_mem_waiterMoves).
-/

namespace Timetable
namespace Executor

/-- The clock, the wall and the tokens with the signals are as before. -/
structure Timeless (e e' : Executor) : Prop where
  now : e'.now = e.now
  wall : e'.wall = e.wall
  tokens : e'.tokens = e.tokens
  signals : e'.signals = e.signals

theorem Timeless.refl (e : Executor) : e.Timeless e :=
  ⟨rfl, rfl, rfl, rfl⟩

theorem Timeless.trans
    {a b c : Executor}
    (hab : a.Timeless b)
    (hbc : b.Timeless c) :
    a.Timeless c :=
  ⟨hbc.now.trans hab.now, hbc.wall.trans hab.wall, hbc.tokens.trans hab.tokens,
    hbc.signals.trans hab.signals⟩

theorem Timeless.wallNow
    {e e' : Executor}
    (h : e.Timeless e') :
    e'.wallNow = e.wallNow := by
  rw [Executor.wallNow, h.now, h.wall, Executor.wallNow]

theorem Timeless.isCancelled
    {e e' : Executor}
    (h : e.Timeless e')
    (t : TokenId) :
    e'.isCancelled t = e.isCancelled t := by
  rw [Executor.isCancelled, h.tokens, Executor.isCancelled]

section Parts

variable (e : Executor)

theorem timeless_enter (t : TrackerId) : e.Timeless (e.enter t) := by
  obtain ⟨journal, h⟩ := e.enter_eq t
  rw [h]
  exact ⟨rfl, rfl, rfl, rfl⟩

theorem timeless_leave (t : TrackerId) : e.Timeless (e.leave t) := by
  obtain ⟨journal, h⟩ := e.leave_eq t
  rw [h]
  exact ⟨rfl, rfl, rfl, rfl⟩

theorem timeless_openSpan
    (tracer : Tracer)
    (name : String)
    (parent : Option SpanRef)
    (tags : List (String × String)) :
    e.Timeless (e.openSpan tracer name parent tags).1 := by
  cases tracer <;> exact ⟨rfl, rfl, rfl, rfl⟩

theorem timeless_attachFailure
    (span : SpanRef)
    (f : JobFailure) :
    e.Timeless (e.attachFailure span f) := by
  cases span <;> exact ⟨rfl, rfl, rfl, rfl⟩

theorem timeless_finishSpan (span : SpanRef) : e.Timeless (e.finishSpan span) := by
  cases span <;> exact ⟨rfl, rfl, rfl, rfl⟩

theorem timeless_release
    (run : Run)
    (depth : Nat)
    (f : Frame) :
    e.Timeless (e.release run depth f) := by
  cases f with
  | track t => exact e.timeless_leave t
  | skip => exact ⟨rfl, rfl, rfl, rfl⟩
  | delay =>
      simp only [release]
      split <;> exact ⟨rfl, rfl, rfl, rfl⟩
  | recover | retry | trace | tag => exact .refl e

theorem timeless_noteEnd
    (run : Run)
    (frames : List Frame)
    (o : Outcome) :
    e.Timeless (e.noteEnd run frames o) := by
  cases o with
  | ok => exact ⟨rfl, rfl, rfl, rfl⟩
  | err f =>
      unfold noteEnd
      dsimp only
      split <;> exact ⟨rfl, rfl, rfl, rfl⟩

/-- Entering a layer takes no time. -/
theorem timeless_enterLayer
    (r : RunId)
    (run : Run)
    (ctx : Context)
    (l : Layer) :
    e.Timeless (e.enterLayer r run ctx l) := by
  cases l with
  | track t => exact (e.timeless_enter t).trans ⟨rfl, rfl, rfl, rfl⟩
  | skip inProgress => cases inProgress <;> exact ⟨rfl, rfl, rfl, rfl⟩
  | delay lock =>
      simp only [enterLayer]
      split <;> exact ⟨rfl, rfl, rfl, rfl⟩
  | trace tracer => exact (e.timeless_openSpan _ _ _ _).trans ⟨rfl, rfl, rfl, rfl⟩
  | recover | retry | tag => exact ⟨rfl, rfl, rfl, rfl⟩

theorem timeless_joinQueue
    (r : RunId)
    (run : Run)
    (ctx : Context)
    (lock : Lock) :
    e.Timeless (e.joinQueue r run ctx lock) := by
  unfold joinQueue
  cases lock.holder <;> exact ⟨rfl, rfl, rfl, rfl⟩

theorem timeless_callTask
    (r : RunId)
    (run : Run)
    (ctx : Context)
    (task : Task) :
    e.Timeless (e.callTask r run ctx task) := by
  simp only [callTask, beginCall]
  split <;> exact ⟨rfl, rfl, rfl, rfl⟩

theorem timeless_endCall
    (r : RunId)
    (run : Run)
    (a : Attempt)
    (call : Nat) :
    e.Timeless (e.endCall r run a call) := by
  unfold endCall
  cases a.ending <;> exact ⟨rfl, rfl, rfl, rfl⟩

theorem timeless_attemptEnded
    (r : RunId)
    (run : Run)
    (frames : List Frame)
    (shutdown : TokenId)
    (ctx : Context)
    (repeated : Nat)
    (due : Option Nat)
    (o : Outcome) :
    e.Timeless (e.attemptEnded r run frames shutdown ctx repeated due o) := by
  simp only [attemptEnded]
  split
  · exact ⟨rfl, rfl, rfl, rfl⟩
  · exact ⟨rfl, rfl, rfl, rfl⟩
  · split <;> exact ⟨rfl, rfl, rfl, rfl⟩

theorem timeless_leaveFrame
    (r : RunId)
    (run : Run)
    (f : Frame)
    (frames : List Frame)
    (o : Outcome) :
    e.Timeless (e.leaveFrame r run f frames o) := by
  cases f with
  | recover => exact (e.timeless_noteEnd _ _ _).trans ⟨rfl, rfl, rfl, rfl⟩
  | retry => exact e.timeless_attemptEnded _ _ _ _ _ _ _ _
  | trace span =>
      cases o with
      | ok => exact (e.timeless_finishSpan span).trans ⟨rfl, rfl, rfl, rfl⟩
      | err failure =>
          exact ((e.timeless_attachFailure span failure).trans
            (timeless_finishSpan _ span)).trans ⟨rfl, rfl, rfl, rfl⟩
  | tag name => exact ⟨rfl, rfl, rfl, rfl⟩
  | track | skip | delay => exact (e.timeless_release _ _ _).trans ⟨rfl, rfl, rfl, rfl⟩

theorem timeless_unwindFrame
    (r : RunId)
    (run : Run)
    (f : Frame)
    (frames : List Frame)
    (p : Payload) :
    e.Timeless (e.unwindFrame r run f frames p) := by
  cases f with
  | recover =>
      have hnoted : e.Timeless ((e.count (.panics (e.jobKey run.job))).logRun run frames .error
          "Job panicked" [("panic", p.message)]) := ⟨rfl, rfl, rfl, rfl⟩
      have hended := hnoted.trans (timeless_noteEnd _ run frames (.err (.panicked p.message)))
      exact hended.trans ⟨rfl, rfl, rfl, rfl⟩
  | track | retry | skip | delay | trace | tag =>
      exact (e.timeless_release _ _ _).trans ⟨rfl, rfl, rfl, rfl⟩

theorem timeless_finishRun
    (r : RunId)
    (run : Run)
    (c : Control) :
    e.Timeless (e.finishRun r run c) := by
  unfold finishRun
  split
  · exact (e.timeless_leave _).trans ⟨rfl, rfl, rfl, rfl⟩
  · exact ⟨rfl, rfl, rfl, rfl⟩

end Parts

theorem timeless_of_mem_pauseMoves
    {e e' : Executor}
    {r : RunId}
    {run : Run}
    {f : JobFailure}
    (h : e' ∈ e.pauseMoves r run f) :
    e.Timeless e' := by
  unfold pauseMoves at h
  split at h
  · rw [List.mem_append, List.mem_append] at h
    rcases h with (h | h) | h <;>
      · obtain ⟨-, rfl⟩ := mem_guarded_iff.1 h
        exact ⟨rfl, rfl, rfl, rfl⟩
  · simp at h

theorem timeless_of_mem_runMoves
    {e e' : Executor}
    {r : RunId}
    (h : e' ∈ e.runMoves r) :
    e.Timeless e' := by
  unfold runMoves at h
  cases hrun : e.runs[r]? with
  | none => simp [hrun] at h
  | some run =>
      simp only [hrun] at h
      split at h
      · split at h
        · simp at h
        · split at h
          · obtain rfl := List.mem_singleton.1 h
            exact e.timeless_enterLayer _ _ _ _
          · obtain rfl := List.mem_singleton.1 h
            exact e.timeless_callTask _ _ _ _
      · unfold joinMoves at h
        split at h
        · obtain rfl := List.mem_singleton.1 h
          exact e.timeless_joinQueue _ _ _ _
        · simp at h
      · obtain ⟨-, rfl⟩ := mem_guarded_iff.1 h
        exact ⟨rfl, rfl, rfl, rfl⟩
      · obtain ⟨-, rfl⟩ := mem_guarded_iff.1 h
        exact ⟨rfl, rfl, rfl, rfl⟩
      · obtain ⟨-, rfl⟩ := mem_guarded_iff.1 h
        exact ⟨rfl, rfl, rfl, rfl⟩
      · obtain rfl := List.mem_singleton.1 h
        exact e.timeless_endCall _ _ _ _
      · exact timeless_of_mem_pauseMoves h
      · split at h
        · obtain rfl := List.mem_singleton.1 h
          exact e.timeless_leaveFrame _ _ _ _ _
        · obtain rfl := List.mem_singleton.1 h
          exact e.timeless_finishRun _ _ _
      · split at h
        · obtain rfl := List.mem_singleton.1 h
          exact e.timeless_unwindFrame _ _ _ _ _
        · obtain rfl := List.mem_singleton.1 h
          exact e.timeless_finishRun _ _ _
      all_goals simp at h

theorem timeless_of_mem_waiterMoves
    {e e' : Executor}
    {n : Nat}
    (h : e' ∈ e.waiterMoves n) :
    e.Timeless e' := by
  unfold waiterMoves at h
  split at h
  · simp at h
  · split at h
    · simp at h
    · obtain ⟨-, rfl⟩ := mem_guarded_iff.1 h
      exact ⟨rfl, rfl, rfl, rfl⟩
    · obtain rfl := List.mem_singleton.1 h
      exact ⟨rfl, rfl, rfl, rfl⟩

end Executor
end Timetable
