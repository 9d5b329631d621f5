import Mathlib.Tactic
import Timetable.Pattern.Search
import Timetable.Proofs.Calendar.Years

/-!
# The least accepted reading

Each part of the search for a reading answers with the least number from its
start on that has a property, or with nothing if there is no such number.  The
law of a search through nested units follows from that of the inner search: the
larger unit of the start is tried first, and every other larger unit is entered
at its beginning.

Main result: the search for a reading finds the least accepted second from the
start on whose year is in the limit and whose day is in the calendar
(leastFrom_nextReading?).
-/

namespace Timetable

/-- An answer is the least number from a start on that has a property, if there is one. -/
def LeastFrom
    {α : Type}
    [LE α]
    (P : α → Prop)
    (start : α) :
    Option α → Prop
  | some n => start ≤ n ∧ P n ∧ ∀ k, start ≤ k → P k → n ≤ k
  | none => ∀ k, start ≤ k → ¬ P k

/-- The answer depends on the property from the start on alone. -/
theorem LeastFrom.congr
    {α : Type}
    [LE α]
    {P Q : α → Prop}
    {start : α}
    {answer : Option α}
    (h : LeastFrom P start answer)
    (hPQ : ∀ n, start ≤ n → (P n ↔ Q n)) :
    LeastFrom Q start answer := by
  cases answer with
  | none => exact fun n hn hQ => h n hn ((hPQ n hn).2 hQ)
  | some m =>
      obtain ⟨hle, hP, hleast⟩ := h
      exact ⟨hle, (hPQ m hle).1 hP, fun n hn hQ => hleast n hn ((hPQ n hn).2 hQ)⟩

/-- There is one least number at most. -/
theorem LeastFrom.unique
    {α : Type}
    [PartialOrder α]
    {P : α → Prop}
    {start : α}
    {a b : Option α}
    (ha : LeastFrom P start a)
    (hb : LeastFrom P start b) :
    a = b := by
  cases a with
  | none =>
      cases b with
      | none => rfl
      | some n => exact absurd hb.2.1 (ha n hb.1)
  | some m =>
      cases b with
      | none => exact absurd ha.2.1 (hb m ha.1)
      | some n =>
          have hmn := ha.2.2 n hb.1 hb.2.1
          have hnm := hb.2.2 m ha.1 ha.2.1
          rw [le_antisymm hmn hnm]

/-- A search among early numbers, and then among the later ones, finds the least of all. -/
theorem LeastFrom.orElse
    {α : Type}
    [LE α]
    {P early : α → Prop}
    {start : α}
    {a b : Option α}
    (hfirst : LeastFrom (fun n => P n ∧ early n) start a)
    (hthen : a = none → LeastFrom (fun n => P n ∧ ¬ early n) start b)
    (horder : ∀ m n, early m → ¬ early n → m ≤ n) :
    LeastFrom P start (a.or b) := by
  cases a with
  | some m =>
      obtain ⟨hle, ⟨hm, hearly⟩, hleast⟩ := hfirst
      refine ⟨hle, hm, ?_⟩
      intro k hk hPk
      by_cases hkearly : early k
      · exact hleast k hk ⟨hPk, hkearly⟩
      · exact horder m k hearly hkearly
  | none =>
      have hlate := hthen rfl
      rw [Option.none_or]
      cases b with
      | some n =>
          obtain ⟨hle, ⟨hn, -⟩, hleast⟩ := hlate
          refine ⟨hle, hn, ?_⟩
          intro k hk hPk
          exact hleast k hk ⟨hPk, fun hearly => hfirst k hk ⟨hPk, hearly⟩⟩
      | none =>
          intro k hk hPk
          exact hlate k hk ⟨hPk, fun hearly => hfirst k hk ⟨hPk, hearly⟩⟩

namespace Mask

/-- The least number of a mask from a lowest to below a limit. -/
theorem leastFrom_spec
    (m : Mask)
    (low limit : Nat) :
    LeastFrom (fun n => n < limit ∧ m.has n = true) low (m.leastFrom low limit) := by
  cases hfound : m.leastFrom low limit with
  | none =>
      intro k hlow hk
      unfold leastFrom at hfound
      rw [List.find?_eq_none] at hfound
      exact hfound k (List.mem_range'_1.2 ⟨hlow, by omega⟩) hk.2
  | some n =>
      obtain ⟨hlow, hlimit, hhas⟩ := leastFrom_bounds hfound
      refine ⟨hlow, ⟨hlimit, hhas⟩, ?_⟩
      intro k hk hkm
      by_contra hlt
      unfold leastFrom at hfound
      rw [List.find?_range'_eq_some] at hfound
      have := hfound.2.2 k hk (by omega)
      simp [hkm.2] at this

end Mask

namespace Pattern

/-- A number of a larger unit splits into the larger unit and what is beyond it. -/
theorem mul_add_div_mod
    {unit a b : Nat}
    (hb : b < unit) :
    (a * unit + b) / unit = a ∧ (a * unit + b) % unit = b := by
  constructor
  · rw [Nat.mul_comm, Nat.mul_add_div (by omega), Nat.div_eq_of_lt hb, Nat.add_zero]
  · rw [Nat.mul_comm, Nat.mul_add_mod, Nat.mod_eq_of_lt hb]

section Nested

variable {outer : Mask} {limit unit start : Nat} {inner : Nat → Option Nat} {Q : Nat → Prop}

/-- In the unit of the start the search is that of the smaller units. -/
theorem leastFrom_here
    (hinner : ∀ s, s < unit → LeastFrom (fun n => n < unit ∧ Q n) s (inner s))
    (hstart : start < limit * unit) :
    LeastFrom
      (fun n => (n < limit * unit ∧ outer.has (n / unit) = true ∧ Q (n % unit)) ∧
        n / unit ≤ start / unit)
      start
      (if outer.has (start / unit) then
        (inner (start % unit)).map (start / unit * unit + ·) else none) := by
  have hunit : 0 < unit := Nat.pos_of_mul_pos_left (Nat.zero_lt_of_lt hstart)
  have hhere : start / unit < limit := Nat.div_lt_of_lt_mul (by rwa [Nat.mul_comm])
  have hsplit := Nat.div_add_mod' start unit
  have hfound := hinner (start % unit) (Nat.mod_lt start hunit)
  have hsame : ∀ n, start ≤ n → n / unit ≤ start / unit →
      n / unit = start / unit ∧ start % unit ≤ n % unit := by
    intro n hn hle
    have heq : n / unit = start / unit := Nat.le_antisymm hle (Nat.div_le_div_right hn)
    have := Nat.div_add_mod' n unit
    rw [heq] at this
    exact ⟨heq, by omega⟩
  split
  · rename_i hhas
    cases hk : inner (start % unit) with
    | none =>
        rw [hk] at hfound
        rintro m hm ⟨⟨-, -, hmQ⟩, hle⟩
        exact hfound (m % unit) (hsame m hm hle).2 ⟨Nat.mod_lt m hunit, hmQ⟩
    | some k =>
        rw [hk] at hfound
        obtain ⟨hle, ⟨hklt, hkQ⟩, hleast⟩ := hfound
        obtain ⟨hdiv, hmod⟩ := mul_add_div_mod (a := start / unit) hklt
        have hend : start / unit * unit + k < limit * unit :=
          calc start / unit * unit + k < (start / unit + 1) * unit := by
                rw [Nat.add_mul, Nat.one_mul]; omega
            _ ≤ limit * unit := Nat.mul_le_mul_right unit hhere
        refine ⟨by dsimp only; omega, ⟨⟨hend, by rwa [hdiv], by rwa [hmod]⟩, hdiv.le⟩, ?_⟩
        rintro m hm ⟨⟨-, -, hmQ⟩, hmle⟩
        obtain ⟨heq, hmod_le⟩ := hsame m hm hmle
        have hmsplit := Nat.div_add_mod' m unit
        rw [heq] at hmsplit
        have := hleast (m % unit) hmod_le ⟨Nat.mod_lt m hunit, hmQ⟩
        dsimp only
        omega
  · rename_i hhas
    rintro m hm ⟨⟨-, hmhas, -⟩, hle⟩
    rw [(hsame m hm hle).1] at hmhas
    exact hhas hmhas

/-- In later units the search begins with the first unit in the mask and from its
beginning. -/
theorem leastFrom_later
    (hinner : ∀ s, s < unit → LeastFrom (fun n => n < unit ∧ Q n) s (inner s))
    (hunit : 0 < unit) :
    LeastFrom
      (fun n => (n < limit * unit ∧ outer.has (n / unit) = true ∧ Q (n % unit)) ∧
        ¬ n / unit ≤ start / unit)
      start
      (match outer.leastFrom (start / unit + 1) limit, inner 0 with
        | some next, some n => some (next * unit + n)
        | _, _ => none) := by
  have hzero := hinner 0 hunit
  have hnext := outer.leastFrom_spec (start / unit + 1) limit
  have hunits : ∀ m, m < limit * unit → m / unit < limit := fun m hm =>
    Nat.div_lt_of_lt_mul (by rwa [Nat.mul_comm])
  cases hnextEq : outer.leastFrom (start / unit + 1) limit with
  | none =>
      rw [hnextEq] at hnext
      rintro m - ⟨⟨hmlimit, hmhas, -⟩, hlater⟩
      exact hnext (m / unit) (by omega) ⟨hunits m hmlimit, hmhas⟩
  | some next =>
      cases hk : inner 0 with
      | none =>
          rw [hk] at hzero
          rintro m - ⟨⟨-, -, hmQ⟩, -⟩
          exact hzero (m % unit) (Nat.zero_le _) ⟨Nat.mod_lt m hunit, hmQ⟩
      | some k =>
          rw [hnextEq] at hnext
          rw [hk] at hzero
          obtain ⟨-, ⟨hklt, hkQ⟩, hkleast⟩ := hzero
          obtain ⟨hle, ⟨hnlimit, hnhas⟩, hnleast⟩ := hnext
          obtain ⟨hdiv, hmod⟩ := mul_add_div_mod (a := next) hklt
          have hsplit := Nat.div_add_mod' start unit
          have hrest := Nat.mod_lt start hunit
          have hmul : (start / unit + 1) * unit ≤ next * unit := Nat.mul_le_mul_right unit hle
          rw [Nat.add_mul, Nat.one_mul] at hmul
          have hend : next * unit + k < limit * unit :=
            calc next * unit + k < (next + 1) * unit := by rw [Nat.add_mul, Nat.one_mul]; omega
              _ ≤ limit * unit := Nat.mul_le_mul_right unit hnlimit
          refine ⟨by omega, ⟨⟨hend, by rwa [hdiv], by rwa [hmod]⟩, by omega⟩, ?_⟩
          rintro m - ⟨⟨hmlimit, hmhas, hmQ⟩, hlater⟩
          have hmsplit := Nat.div_add_mod' m unit
          have hunitLe := hnleast (m / unit) (by omega) ⟨hunits m hmlimit, hmhas⟩
          have hkle := hkleast (m % unit) (Nat.zero_le _) ⟨Nat.mod_lt m hunit, hmQ⟩
          have := Nat.mul_le_mul_right unit hunitLe
          omega

variable (outer limit unit)

/-- **A search through nested units finds the least number, if the inner search does.** -/
theorem leastFrom_nested
    (hinner : ∀ s, s < unit → LeastFrom (fun n => n < unit ∧ Q n) s (inner s))
    (hstart : start < limit * unit) :
    LeastFrom (fun n => n < limit * unit ∧ outer.has (n / unit) = true ∧ Q (n % unit)) start
      (nested outer limit unit inner start) := by
  have hunit : 0 < unit := Nat.pos_of_mul_pos_left (Nat.zero_lt_of_lt hstart)
  have hnested :
      nested outer limit unit inner start =
        (if outer.has (start / unit) then
          (inner (start % unit)).map (start / unit * unit + ·) else none).or
        (match outer.leastFrom (start / unit + 1) limit, inner 0 with
          | some next, some n => some (next * unit + n)
          | _, _ => none) := by
    unfold nested
    dsimp only
    split <;> rename_i h <;> rw [h] <;> rfl
  rw [hnested]
  apply LeastFrom.orElse (leastFrom_here hinner hstart)
  · intro _
    exact leastFrom_later hinner hunit
  · intro m n hm hn
    by_contra hlt
    have : n / unit ≤ m / unit := Nat.div_le_div_right (by omega)
    omega

end Nested

variable (p : Pattern)

theorem leastFrom_secondFrom (start : Nat) :
    LeastFrom (fun n => n < 60 ∧ p.second.has n = true) start (p.secondFrom start) :=
  p.second.leastFrom_spec start 60

theorem leastFrom_minuteFrom
    {start : Nat}
    (hstart : start < 3600) :
    LeastFrom
      (fun n => n < 3600 ∧ p.minute.has (n / 60) = true ∧ p.second.has (n % 60) = true)
      start (p.minuteFrom start) :=
  leastFrom_nested _ 60 60
    (fun s _ => p.leastFrom_secondFrom s) hstart

/-- The search for a time of day finds the least accepted one. -/
theorem leastFrom_timeFrom
    {start : Nat}
    (hstart : start < 86400) :
    LeastFrom (fun t => t < 86400 ∧ p.acceptsTime t = true) start (p.timeFrom start) := by
  have hnested :=
    leastFrom_nested p.hour 24 3600
      (fun s hs => p.leastFrom_minuteFrom hs) hstart
  apply hnested.congr
  intro t _
  have hminute : t % 3600 / 60 = t / 60 % 60 := by omega
  have hsecond : t % 3600 % 60 = t % 60 := by omega
  simp only [acceptsTime, Bool.and_eq_true, hminute, hsecond, and_assoc]

/-- The search for a day finds the first accepted one. -/
theorem leastFrom_dayFrom (day last : Int) :
    LeastFrom (fun d => d ≤ last ∧ p.acceptsDay d = true) day (p.dayFrom day last) := by
  fun_induction dayFrom p day last with
  | case1 day hlast =>
      rintro d hd ⟨hdl, -⟩
      omega
  | case2 day hlast haccepts =>
      exact ⟨Int.le_refl _, ⟨by omega, haccepts⟩, fun d hd _ => hd⟩
  | case3 day hlast hrefuses ih =>
      have hskip : ∀ d, day ≤ d → p.acceptsDay d = true → day + 1 ≤ d := by
        intro d hd haccepts
        rcases Int.lt_or_eq_of_le hd with hlt | heq
        · omega
        · rw [← heq] at haccepts
          exact absurd haccepts hrefuses
      cases hfound : p.dayFrom (day + 1) last with
      | none =>
          rw [hfound] at ih
          rintro d hd ⟨hdl, haccepts⟩
          exact ih d (hskip d hd haccepts) ⟨hdl, haccepts⟩
      | some found =>
          rw [hfound] at ih
          obtain ⟨hle, hP, hleast⟩ := ih
          refine ⟨by omega, hP, ?_⟩
          rintro d hd ⟨hdl, haccepts⟩
          exact hleast d (hskip d hd haccepts) ⟨hdl, haccepts⟩

/-- A time of day on a day is a second of that day. -/
theorem dayOfSecond_onDay
    (day : Int)
    {t : Nat}
    (ht : t < 86400) :
    Calendar.dayOfSecond (day * Calendar.secondsPerDay + (t : Int)) = day ∧
      Calendar.timeOfSecond (day * Calendar.secondsPerDay + (t : Int)) = t := by
  unfold Calendar.dayOfSecond Calendar.timeOfSecond Calendar.secondsPerDay
  omega

/-- The accepted seconds up to the end of a day. -/
def AcceptedUpTo (last second : Int) : Prop :=
  Calendar.dayOfSecond second ≤ last ∧ p.accepts second = true

theorem acceptedUpTo_iff (last second : Int) :
    p.AcceptedUpTo last second ↔
      Calendar.dayOfSecond second ≤ last ∧
      p.acceptsDay (Calendar.dayOfSecond second) = true ∧
      p.acceptsTime (Calendar.timeOfSecond second) = true := by
  simp only [AcceptedUpTo, accepts, Bool.and_eq_true]

/-- On the day of the start the least accepted second is searched from the start on. -/
theorem leastFrom_today
    {start last : Int}
    (hlast : Calendar.dayOfSecond start ≤ last) :
    LeastFrom
      (fun s => p.AcceptedUpTo last s ∧ Calendar.dayOfSecond s ≤ Calendar.dayOfSecond start)
      start
      (if p.acceptsDay (Calendar.dayOfSecond start) then
        p.onDay (Calendar.dayOfSecond start) (Calendar.timeOfSecond start) else none) := by
  have hsplit := Calendar.dayOfSecond_timeOfSecond start
  have hfound := p.leastFrom_timeFrom (Calendar.timeOfSecond_lt start)
  have hsame : ∀ s, start ≤ s → Calendar.dayOfSecond s ≤ Calendar.dayOfSecond start →
      Calendar.dayOfSecond s = Calendar.dayOfSecond start ∧
        Calendar.timeOfSecond start ≤ Calendar.timeOfSecond s := by
    intro s hs hle
    have := Calendar.dayOfSecond_timeOfSecond s
    unfold Calendar.dayOfSecond Calendar.secondsPerDay at *
    omega
  split
  · rename_i haccepts
    simp only [onDay]
    cases ht : p.timeFrom (Calendar.timeOfSecond start) with
    | none =>
        rw [ht] at hfound
        rintro s hs ⟨haccepted, hle⟩
        rw [acceptedUpTo_iff] at haccepted
        exact hfound _ (hsame s hs hle).2 ⟨Calendar.timeOfSecond_lt s, haccepted.2.2⟩
    | some t =>
        rw [ht] at hfound
        obtain ⟨hle, ⟨htlt, htime⟩, hleast⟩ := hfound
        obtain ⟨hday, htod⟩ := dayOfSecond_onDay (Calendar.dayOfSecond start) htlt
        refine ⟨by dsimp only; omega, ⟨?_, by rw [hday]⟩, ?_⟩
        · rw [acceptedUpTo_iff, hday, htod]
          exact ⟨hlast, haccepts, htime⟩
        · rintro s hs ⟨haccepted, hsle⟩
          rw [acceptedUpTo_iff] at haccepted
          obtain ⟨hsday, htimes⟩ := hsame s hs hsle
          have := hleast _ htimes ⟨Calendar.timeOfSecond_lt s, haccepted.2.2⟩
          have hs_split := Calendar.dayOfSecond_timeOfSecond s
          rw [hsday] at hs_split
          dsimp only
          omega
  · rename_i hrefuses
    rintro s hs ⟨haccepted, hle⟩
    rw [acceptedUpTo_iff, (hsame s hs hle).1] at haccepted
    exact hrefuses haccepted.2.1

/-- After the day of the start the search begins on the first accepted day, at its
beginning. -/
theorem leastFrom_afterDay (start last : Int) :
    LeastFrom
      (fun s => p.AcceptedUpTo last s ∧ ¬ Calendar.dayOfSecond s ≤ Calendar.dayOfSecond start)
      start (p.afterDay (Calendar.dayOfSecond start) last) := by
  have hdays := p.leastFrom_dayFrom (Calendar.dayOfSecond start + 1) last
  have hmidnight : 0 < 86400 := by decide
  have htimes := p.leastFrom_timeFrom hmidnight
  simp only [afterDay, onDay]
  cases hday : p.dayFrom (Calendar.dayOfSecond start + 1) last with
  | none =>
      rw [hday] at hdays
      rintro s - ⟨haccepted, hlater⟩
      rw [acceptedUpTo_iff] at haccepted
      exact hdays (Calendar.dayOfSecond s) (by omega) ⟨haccepted.1, haccepted.2.1⟩
  | some day =>
      rw [hday] at hdays
      obtain ⟨hle, ⟨hdayLast, hdayAccepts⟩, hdayLeast⟩ := hdays
      cases ht : p.timeFrom 0 with
      | none =>
          rw [ht] at htimes
          rintro s - ⟨haccepted, -⟩
          rw [acceptedUpTo_iff] at haccepted
          exact htimes _ (Nat.zero_le _) ⟨Calendar.timeOfSecond_lt s, haccepted.2.2⟩
      | some t =>
          rw [ht] at htimes
          obtain ⟨-, ⟨htlt, htime⟩, htLeast⟩ := htimes
          obtain ⟨hsecondDay, hsecondTime⟩ := dayOfSecond_onDay day htlt
          have hsplit := Calendar.dayOfSecond_timeOfSecond start
          have hlt := Calendar.timeOfSecond_lt start
          refine ⟨?_, ⟨?_, by rw [hsecondDay]; omega⟩, ?_⟩
          · unfold Calendar.secondsPerDay at *
            dsimp only
            omega
          · rw [acceptedUpTo_iff, hsecondDay, hsecondTime]
            exact ⟨hdayLast, hdayAccepts, htime⟩
          · rintro s - ⟨haccepted, hlater⟩
            rw [acceptedUpTo_iff] at haccepted
            have hdayLe := hdayLeast (Calendar.dayOfSecond s) (by omega)
              ⟨haccepted.1, haccepted.2.1⟩
            have htLe := htLeast _ (Nat.zero_le _)
              ⟨Calendar.timeOfSecond_lt s, haccepted.2.2⟩
            have hs_split := Calendar.dayOfSecond_timeOfSecond s
            unfold Calendar.secondsPerDay at *
            dsimp only
            omega

/-- The search for a reading finds the least accepted second up to its last day. -/
theorem leastFrom_upTo (start year : Int) :
    LeastFrom (p.AcceptedUpTo (lastSearchDay year)) start (p.nextReading? start year) := by
  simp only [nextReading?]
  split
  · rename_i hover
    rintro s hs ⟨hday, -⟩
    unfold Calendar.dayOfSecond Calendar.secondsPerDay at *
    omega
  · rename_i hlast
    have hboth :=
      LeastFrom.orElse (p.leastFrom_today (by omega))
        (fun _ => p.leastFrom_afterDay start (lastSearchDay year)) (by
          intro m n hm hn
          unfold Calendar.dayOfSecond Calendar.secondsPerDay at *
          omega)
    split <;> rename_i h <;> rw [h] at hboth <;> exact hboth

/-- The search for readings up to a year ends with the year or with the calendar. -/
theorem le_lastSearchDay_iff (second year : Int) :
    Calendar.dayOfSecond second ≤ lastSearchDay year ↔
      Calendar.yearOfSecond second ≤ year ∧
        Calendar.dayOfSecond second ≤ Calendar.lastDay := by
  unfold lastSearchDay Calendar.yearOfSecond
  rw [Calendar.year_dateOf_le_iff, le_min_iff]

/-- **The search for a reading finds the least accepted second from the start on among
those in the calendar whose year is in the limit.** -/
theorem leastFrom_nextReading? (start year : Int) :
    LeastFrom
      (fun s => Calendar.yearOfSecond s ≤ year ∧
        Calendar.dayOfSecond s ≤ Calendar.lastDay ∧ p.accepts s = true)
      start (p.nextReading? start year) := by
  apply (p.leastFrom_upTo start year).congr
  intro s _
  rw [AcceptedUpTo, le_lastSearchDay_iff, and_assoc]

end Pattern
end Timetable
