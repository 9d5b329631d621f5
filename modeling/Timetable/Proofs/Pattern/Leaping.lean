import Timetable.Proofs.Calendar.Grains
import Timetable.Proofs.Pattern.Sound

/-!
# The search by leaps

A reading can be searched for without looking at every day.  Whoever stands at a
second looks at its grains, from the month down to the second.  While a grain is
refused he leaps to the next one of its kind, and if that is the first in a coarser
grain he looks at everything anew, from the year on.  Only before the first leap
does he step back to the beginning of the refused grain: every later leap starts
where a grain begins, since leaps end there.

Nothing is counted on the way, so it has to be shown that the search ends.  It does,
and with the same answer as the search that goes through the days and the times of
day one after the other.

Main results:

* no leap passes over a candidate (Reached.not_candidate_before_leap);
* a step of the search keeps what has been reached and comes closer to the end of
  the calendar, or answers with the least candidate (Reached.step), so the search ends
  wherever it stands (Reached.ends);
* the search by leaps has the answer of the other search, the least candidate
  (leaps_to_least).
-/

namespace Timetable

namespace Calendar

/-- A second lies in the calendar. -/
def Has (s : Int) : Prop :=
  firstDay ≤ dayOfSecond s ∧ dayOfSecond s ≤ lastDay

instance (s : Int) : Decidable (Has s) :=
  inferInstanceAs (Decidable (_ ∧ _))

end Calendar

namespace Reading

/-- The seconds in the calendar are those that have a reading. -/
theorem exists_ofSecond?_iff
    {s : Int} :
    (∃ r, ofSecond? s = some r) ↔ Calendar.Has s := by
  have hcalendar :
      Calendar.Has s ↔ firstNano ≤ s * nanosPerSecond ∧ s * nanosPerSecond ≤ lastNano := by
    simp only [Calendar.Has, Calendar.dayOfSecond, Calendar.secondsPerDay, firstNano, lastNano,
      nanosPerSecond]
    omega
  rw [hcalendar]
  constructor
  · rintro ⟨r, hr⟩
    rw [← ofSecond?_eq_some_iff.1 hr]
    exact r.face.inCalendar
  · intro h
    exact ⟨⟨⟨s * nanosPerSecond, h⟩⟩, ofSecond?_eq_some_iff.2 rfl⟩

theorem has_second (r : Reading) : Calendar.Has r.second := by
  have h := r.face.inCalendar
  simp only [firstNano, lastNano, Calendar.secondsPerDay, nanosPerSecond] at h
  simp only [Calendar.Has, Reading.second, Instant.second, Calendar.dayOfSecond,
    Calendar.secondsPerDay, nanosPerSecond]
  omega

end Reading

namespace Pattern

variable (p : Pattern)

/-- The pattern accepts the grain in which a second lies. -/
def holds (g : Grain) (s : Int) : Bool :=
  match g with
  | .month => p.month.has (Grain.month.number s)
  | .day => p.dayRule (Grain.day.number s) (Calendar.weekday (Calendar.dayOfSecond s))
  | .hour => p.hour.has (Grain.hour.number s)
  | .minute => p.minute.has (Grain.minute.number s)
  | .second => p.second.has (Grain.second.number s)

end Pattern

/-- Where a search by leaps stands: at a second, before it looks at a grain, or at the year
if there is none, after it has leapt or before. -/
structure Leaper where
  grain? : Option Grain
  second : Int
  leapt : Bool
  deriving DecidableEq, Repr

namespace Leaper

/-- The search before its first step. -/
def start (s : Int) : Leaper :=
  ⟨none, s, false⟩

/-- Where a leap over a grain starts. -/
def takeoff (l : Leaper) (g : Grain) : Int :=
  if l.leapt then l.second else g.floor l.second

/-- The steps that are left up to the end of the calendar, or more. -/
def left (l : Leaper) : Nat :=
  6 * ((Calendar.lastDay + 1) * Calendar.secondsPerDay - l.second).toNat +
    (l.grain?.elim 5 Grain.rank)

end Leaper

namespace Pattern

variable (p : Pattern)

/-- One step of a search by leaps up to the end of a year: to where it stands next, or to its
answer. -/
def leapStep (year : Int) (l : Leaper) : Leaper ⊕ Option Int :=
  match l.grain? with
  | none =>
      if year < Calendar.yearOfSecond l.second then .inr none
      else .inl { l with grain? := some .month }
  | some g =>
      if p.holds g l.second then
        match g.finer? with
        | some finer => .inl { l with grain? := some finer }
        | none => .inr (some l.second)
      else
        let next := g.leap (l.takeoff g)
        if Calendar.Has next then .inl ⟨if g.isFirst next then none else some g, next, true⟩
        else .inr none

/-- A search by leaps ends with an answer. -/
inductive LeapsTo (year : Int) : Leaper → Option Int → Prop
  | ends
      {l : Leaper}
      {answer : Option Int}
      (h : p.leapStep year l = .inr answer) :
      LeapsTo year l answer
  | goes
      {l next : Leaper}
      {answer : Option Int}
      (h : p.leapStep year l = .inl next)
      (rest : LeapsTo year next answer) :
      LeapsTo year l answer

/-- The reading of a second is in the calendar, its year in the limit, and each part of it in
its mask. -/
structure Candidate (year s : Int) : Prop where
  reading : ∃ r : Reading, Reading.ofSecond? s = some r
  inLimit : Calendar.yearOfSecond s ≤ year
  inMasks : p.InMasks s

/-- What a search by leaps from a start on knows where it stands. -/
structure Reached (year start : Int) (l : Leaper) : Prop where
  ahead : start ≤ l.second
  has : Calendar.Has l.second
  missed : ∀ s, start ≤ s → s < l.second → ¬ p.Candidate year s
  passed : ∀ g, l.grain? = some g →
    Calendar.yearOfSecond l.second ≤ year ∧
      ∀ c : Grain, g.rank < c.rank → p.holds c l.second = true
  begun : l.leapt = true → ∀ g : Grain, p.holds g l.second = true ∨ g.floor l.second = l.second

variable {p}

/-- A second is in the masks if the pattern accepts all its grains. -/
theorem inMasks_iff_holds
    {s : Int} :
    p.InMasks s ↔ ∀ g, p.holds g s = true := by
  constructor
  · rintro ⟨hmonth, hday, hhour, hminute, hsecond⟩ g
    cases g with
    | month => exact hmonth
    | day => exact dayRule_eq_true_iff.2 hday
    | hour => exact hhour
    | minute => exact hminute
    | second => exact hsecond
  · intro h
    exact ⟨h .month, dayRule_eq_true_iff.1 (h .day), h .hour, h .minute, h .second⟩

/-- A pattern accepts a grain whichever second of it is looked at. -/
theorem holds_of_floor
    {g : Grain}
    {s u : Int}
    (h : g.floor u = g.floor s) :
    p.holds g u = p.holds g s := by
  have hnumber := Grain.number_of_floor h
  cases g with
  | day =>
      unfold holds
      dsimp only
      rw [hnumber, Grain.dayOfSecond_of_floor h]
  | month | hour | minute | second =>
      unfold holds
      dsimp only
      rw [hnumber]

section Reached

variable {year start : Int} {l : Leaper} {g : Grain}

theorem reached_start
    (h : Calendar.Has start) :
    p.Reached year start (.start start) where
  ahead := Int.le_refl _
  has := h
  missed := fun s hs hlt => absurd hs (Int.not_le.2 hlt)
  passed := fun g hg => by simp [Leaper.start] at hg
  begun := fun hleapt => by simp [Leaper.start] at hleapt

/-- A leap starts where the refused grain begins, whether the search steps back to it or not. -/
theorem Reached.takeoff_eq
    (h : p.Reached year start l)
    (refused : ¬ p.holds g l.second = true) :
    l.takeoff g = g.floor l.second := by
  unfold Leaper.takeoff
  split_ifs with hleapt
  · obtain hholds | hfloor := h.begun hleapt g
    · exact absurd hholds refused
    · exact hfloor.symm
  · rfl

theorem Reached.lt_leap
    (h : p.Reached year start l)
    (refused : ¬ p.holds g l.second = true) :
    l.second < g.leap (l.takeoff g) := by
  rw [h.takeoff_eq refused]
  exact g.lt_leap_floor l.second

/-- A leap passes over no candidate. -/
theorem Reached.not_candidate_before_leap
    (h : p.Reached year start l)
    (refused : ¬ p.holds g l.second = true)
    {s : Int}
    (hstart : start ≤ s)
    (hlt : s < g.leap (l.takeoff g)) :
    ¬ p.Candidate year s := by
  intro hs
  rcases lt_or_ge s l.second with hbefore | hafter
  · exact h.missed s hstart hbefore hs
  · rw [h.takeoff_eq refused] at hlt
    have hfloor : g.floor s = g.floor l.second :=
      Grain.floor_eq_of_between ((g.floor_bounds l.second).1.trans hafter) hlt
    have hholds := inMasks_iff_holds.1 hs.inMasks g
    rw [holds_of_floor hfloor] at hholds
    exact refused hholds

/-! ### The steps -/

/-- Beyond the limit there is no candidate any more. -/
theorem Reached.beyond
    (h : p.Reached year start l)
    (hover : year < Calendar.yearOfSecond l.second) :
    LeastFrom (p.Candidate year) start none := by
  intro s hs hcandidate
  rcases lt_or_ge s l.second with hlt | hge
  · exact h.missed s hs hlt hcandidate
  · have hyear := (yearOfSecond_mono hge).trans hcandidate.inLimit
    omega

/-- In the limit the search looks at the month. -/
theorem Reached.inYear
    (h : p.Reached year start l)
    (hyear : ¬ year < Calendar.yearOfSecond l.second) :
    p.Reached year start { l with grain? := some .month } := by
  refine ⟨h.ahead, h.has, h.missed, ?_, h.begun⟩
  rintro g ⟨⟩
  refine ⟨Int.not_lt.1 hyear, fun c hc => ?_⟩
  cases c <;> simp [Grain.rank] at hc

/-- Behind an accepted grain the search looks at the next finer one. -/
theorem Reached.finer
    (h : p.Reached year start l)
    (hg : l.grain? = some g)
    (hholds : p.holds g l.second = true)
    {f : Grain}
    (hf : g.finer? = some f) :
    p.Reached year start { l with grain? := some f } := by
  obtain ⟨hyear, hpassed⟩ := h.passed g hg
  have hrank := Grain.rank_of_finer? hf
  refine ⟨h.ahead, h.has, h.missed, ?_, h.begun⟩
  rintro _ ⟨⟩
  refine ⟨hyear, fun c hc => ?_⟩
  rcases Nat.lt_or_eq_of_le (show g.rank ≤ c.rank by omega) with hlt | heq
  · exact hpassed c hlt
  · rw [← Grain.rank_injective heq]
    exact hholds

/-- Behind the finest grain the search has found the least candidate. -/
theorem Reached.found
    (h : p.Reached year start l)
    (hg : l.grain? = some g)
    (hholds : p.holds g l.second = true)
    (hfinest : g.finer? = none) :
    LeastFrom (p.Candidate year) start (some l.second) := by
  obtain ⟨hyear, hpassed⟩ := h.passed g hg
  have hrank : g.rank = 0 := Grain.rank_eq_zero hfinest
  have hmasks : p.InMasks l.second := by
    rw [inMasks_iff_holds]
    intro c
    rcases Nat.eq_zero_or_pos c.rank with hzero | hcoarser
    · rw [Grain.rank_injective (hzero.trans hrank.symm)]
      exact hholds
    · exact hpassed c (by omega)
  refine ⟨h.ahead, ⟨Reading.exists_ofSecond?_iff.2 h.has, hyear, hmasks⟩, ?_⟩
  intro s hs hcandidate
  by_contra hlt
  exact h.missed s hs (Int.not_le.1 hlt) hcandidate

/-- Over a refused grain the search leaps to the next one, and back to the year if that is the
first one in a coarser grain. -/
theorem Reached.leap
    (h : p.Reached year start l)
    (hg : l.grain? = some g)
    (refused : ¬ p.holds g l.second = true)
    (has : Calendar.Has (g.leap (l.takeoff g))) :
    p.Reached year start
      ⟨if g.isFirst (g.leap (l.takeoff g)) then none else some g, g.leap (l.takeoff g), true⟩ := by
  obtain ⟨hyear, hpassed⟩ := h.passed g hg
  refine ⟨h.ahead.trans (h.lt_leap refused).le, has,
    fun s => h.not_candidate_before_leap refused, ?_, ?_⟩
  · intro g' hg'
    rw [h.takeoff_eq refused] at hg' ⊢
    dsimp only at hg' ⊢
    split_ifs at hg' with hlater
    rw [Bool.not_eq_true] at hlater
    cases hg'
    rw [Grain.yearOfSecond_leap hlater]
    refine ⟨hyear, ?_⟩
    intro c hc
    rw [holds_of_floor (Grain.floor_leap_of_not_isFirst hc hlater)]
    exact hpassed c hc
  · -- A coarser grain that the leap has left begins where it ends, and so do all finer ones.
    intro _ f
    rw [h.takeoff_eq refused]
    rcases Nat.lt_or_ge g.rank f.rank with hcoarser | hfiner
    · obtain hsame | hbegins := Grain.floor_leap_of_coarser (s := l.second) hcoarser
      · exact Or.inl ((holds_of_floor hsame).trans (hpassed f hcoarser))
      · exact Or.inr hbegins
    · exact Or.inr (Grain.floor_leap_of_finer hfiner l.second)

/-- A leap that ends outside the calendar has passed over all that is left of it. -/
theorem Reached.outside
    (h : p.Reached year start l)
    (refused : ¬ p.holds g l.second = true)
    (hout : ¬ Calendar.Has (g.leap (l.takeoff g))) :
    LeastFrom (p.Candidate year) start none := by
  intro s hs hcandidate
  have hafter : g.leap (l.takeoff g) ≤ s := by
    by_contra hlt
    exact h.not_candidate_before_leap refused hs (Int.not_le.1 hlt) hcandidate
  have hend := (Reading.exists_ofSecond?_iff.1 hcandidate.reading).2
  have hbegin := h.has.1
  have hlater := h.lt_leap refused
  apply hout
  unfold Calendar.Has Calendar.dayOfSecond Calendar.secondsPerDay at *
  omega

theorem Reached.left_lt_of_leap
    (h : p.Reached year start l)
    (refused : ¬ p.holds g l.second = true)
    (has : Calendar.Has (g.leap (l.takeoff g)))
    (grain? : Option Grain) :
    (Leaper.mk grain? (g.leap (l.takeoff g)) true).left < l.left := by
  have hlater := h.lt_leap refused
  have hend := has.2
  have hrank : grain?.elim 5 Grain.rank ≤ 5 := by
    cases grain? with
    | none => exact Nat.le_refl 5
    | some g => cases g <;> decide
  unfold Leaper.left
  dsimp only
  generalize g.leap (l.takeoff g) = s at *
  unfold Calendar.dayOfSecond Calendar.secondsPerDay at hend
  unfold Calendar.secondsPerDay
  omega

/-- **A step keeps what has been reached and comes closer to the end of the calendar, or it
answers with the least candidate.** -/
theorem Reached.step
    (h : p.Reached year start l) :
    match p.leapStep year l with
    | .inl next => p.Reached year start next ∧ next.left < l.left
    | .inr answer => LeastFrom (p.Candidate year) start answer := by
  fun_cases p.leapStep year l with
  | case1 hnone hover => exact h.beyond hover
  | case2 hnone hyear =>
      refine ⟨h.inYear hyear, ?_⟩
      unfold Leaper.left
      simp [hnone, Grain.rank]
  | case3 g hg hholds f hf =>
      have hrank := Grain.rank_of_finer? hf
      refine ⟨h.finer hg hholds hf, ?_⟩
      unfold Leaper.left
      simp [hg, hrank]
  | case4 g hg hholds hfinest => exact h.found hg hholds hfinest
  | case5 g hg hrefused next has => exact ⟨h.leap hg hrefused has, h.left_lt_of_leap hrefused has _⟩
  | case6 g hg hrefused next hout => exact h.outside hrefused hout

/-- From wherever a search by leaps has come to, it ends, and with the least candidate. -/
theorem Reached.ends
    (h : p.Reached year start l) :
    ∃ answer, p.LeapsTo year l answer ∧ LeastFrom (p.Candidate year) start answer := by
  induction hleft : l.left using Nat.strong_induction_on generalizing l with
  | _ n ih =>
      have hstep := h.step
      cases hs : p.leapStep year l with
      | inl next =>
          rw [hs] at hstep
          obtain ⟨hreached, hlt⟩ := hstep
          obtain ⟨answer, hanswer, hleast⟩ := ih next.left (hleft ▸ hlt) hreached rfl
          exact ⟨answer, .goes hs hanswer, hleast⟩
      | inr answer =>
          rw [hs] at hstep
          exact ⟨answer, .ends hs, hstep⟩

end Reached

/-- A search by leaps has one answer. -/
theorem LeapsTo.unique
    {year : Int}
    {l : Leaper}
    {a b : Option Int}
    (ha : p.LeapsTo year l a)
    (hb : p.LeapsTo year l b) :
    a = b := by
  induction ha with
  | ends h =>
      cases hb with
      | ends h' => exact Sum.inr.inj (h.symm.trans h')
      | goes h' _ => cases h.symm.trans h'
  | goes h _ ih =>
      cases hb with
      | ends h' => cases h.symm.trans h'
      | goes h' rest =>
          obtain rfl := Sum.inl.inj (h.symm.trans h')
          exact ih rest

variable (p)

/-- The search through days and times of day finds the least candidate. -/
theorem leastFrom_candidate
    {start : Int}
    (h : Calendar.Has start)
    (year : Int) :
    LeastFrom (p.Candidate year) start (p.nextReading? start year) := by
  apply (p.leastFrom_nextReading? start year).congr
  intro s hs
  constructor
  · rintro ⟨hyear, hlast, haccepts⟩
    have hfirst : Calendar.firstDay ≤ Calendar.dayOfSecond s :=
      h.1.trans (Int.ediv_le_ediv (by decide) hs)
    exact ⟨Reading.exists_ofSecond?_iff.2 ⟨hfirst, hlast⟩, hyear, accepts_eq_true_iff.1 haccepts⟩
  · rintro ⟨hreading, hyear, hmasks⟩
    exact ⟨hyear, (Reading.exists_ofSecond?_iff.1 hreading).2, accepts_eq_true_iff.2 hmasks⟩

/-- **The search for a reading ends with the least candidate.**  From every reading of the
calendar and for every limit a search by leaps ends, with one answer.  It is the answer of the
search through days and times of day: the least second from the start on whose reading is in the
calendar, in the limit and in all masks, and nothing only if there is none. -/
theorem leaps_to_least
    (t : Reading)
    (year : Int) :
    (∀ answer,
      p.LeapsTo year (.start t.second) answer ↔ answer = p.nextReading? t.second year) ∧
      LeastFrom (p.Candidate year) t.second (p.nextReading? t.second year) := by
  have hleast := p.leastFrom_candidate t.has_second year
  have hreached : p.Reached year t.second (.start t.second) := reached_start t.has_second
  obtain ⟨found, hends, hfound⟩ := hreached.ends
  obtain rfl := hfound.unique hleast
  refine ⟨fun answer => ⟨fun h => h.unique hends, ?_⟩, hleast⟩
  rintro rfl
  exact hends

end Pattern
end Timetable
