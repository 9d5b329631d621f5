/-!
# Cancellation tokens

A token is cancelled once and for all.  A token may have been made from another
one, and is cancelled with it.  Tokens are kept in a table in the order in which
they were made, each with the tokens above it.

A cancellation spreads from a token level by level: of the tokens made from one
token the newest hears of it first, and then the others, the oldest first.  The
token that is cancelled comes last.

Main results:

* cancelling reaches a token and all tokens made from it, and no other
  (isCancelled_cancel);
* what is cancelled stays cancelled (isCancelled_cancel_of);
* the token that is cancelled hears of it last (getLast?_hearing).
-/

namespace Timetable

/-- A token is known by its place in the table. -/
abbrev TokenId := Nat

/-- A token: the tokens above it, nearest first, and whether it is cancelled. -/
structure TokenState where
  above : List TokenId
  cancelled : Bool
  deriving DecidableEq, Repr

/-- All tokens. -/
structure Tokens where
  table : List TokenState := []
  deriving DecidableEq, Repr

namespace Tokens

/-- The token is cancelled. -/
def isCancelled (ts : Tokens) (t : TokenId) : Bool :=
  (ts.table[t]?).any TokenState.cancelled

/-- A token was made from another one, with none between them. -/
def isMadeFrom (ts : Tokens) (t u : TokenId) : Bool :=
  (ts.table[u]?).any fun s => s.above.head? == some t

/-- The tokens made from a token, in the order in which they hear of its cancellation. -/
def offspring (ts : Tokens) (t : TokenId) : List TokenId :=
  let made := (List.range ts.table.length).filter (ts.isMadeFrom t)
  made.getLast?.toList ++ made.dropLast

/-- The tokens that hear of a cancellation after some that wait to hear of it, so many at
most. -/
def spread (ts : Tokens) : Nat → List TokenId → List TokenId
  | n + 1, t :: rest => t :: ts.spread n (rest ++ ts.offspring t)
  | _, _ => []

/-- The tokens that hear of the cancellation of a token, in order. -/
def hearing (ts : Tokens) (t : TokenId) : List TokenId :=
  ts.spread ts.table.length (ts.offspring t) ++ [t]

/-- The token that is cancelled hears of it last. -/
theorem getLast?_hearing (ts : Tokens) (t : TokenId) : (ts.hearing t).getLast? = some t := by
  simp [hearing]

/-- The tokens with a new one that has none above it. -/
def fresh (ts : Tokens) : Tokens × TokenId :=
  (⟨ts.table ++ [⟨[], false⟩]⟩, ts.table.length)

/-- The tokens with a new one made from another. -/
def child (ts : Tokens) (t : TokenId) : Tokens × TokenId :=
  let above := ((ts.table[t]?).map TokenState.above).getD []
  (⟨ts.table ++ [⟨t :: above, ts.isCancelled t⟩]⟩, ts.table.length)

/-- A token and those made from it are cancelled. -/
def cancel (ts : Tokens) (t : TokenId) : Tokens :=
  ⟨ts.table.mapIdx fun i s =>
    { s with cancelled := s.cancelled || i == t || s.above.contains t }⟩

@[simp] theorem length_cancel (ts : Tokens) (t : TokenId) :
    (ts.cancel t).table.length = ts.table.length := by
  simp [cancel]

/-- Cancelling reaches a token and all tokens made from it, and no other. -/
theorem isCancelled_cancel (ts : Tokens) (t u : TokenId) :
    (ts.cancel t).isCancelled u =
      (ts.table[u]?).any fun s => s.cancelled || u == t || s.above.contains t := by
  simp [isCancelled, cancel]
  cases ts.table[u]? <;> rfl

/-- What is cancelled stays cancelled. -/
theorem isCancelled_cancel_of {ts : Tokens} {u : TokenId} (t : TokenId)
    (h : ts.isCancelled u = true) : (ts.cancel t).isCancelled u = true := by
  rw [isCancelled_cancel]
  unfold isCancelled at h
  cases hu : ts.table[u]? with
  | none => simp [hu] at h
  | some s =>
      simp [hu] at h
      simp [h]

end Tokens
end Timetable
