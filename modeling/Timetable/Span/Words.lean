import Timetable.Span
import Timetable.Text.Blank
import Timetable.Text.Numeral

/-!
# Spans in words

A span is written as a sum of items such as "2days 3h 15m": each item is a
number, perhaps with a fraction, and a unit.  The reader goes through the text
once, character by character, in one of four modes; it knows the byte offset of
each character, which its faults report.  Blanks may stand between the digits of
a number but not inside a unit.

The printer uses each unit at most once, from years down to nanoseconds.
-/

namespace Timetable
namespace Span

/-- Units of time, from the smallest. -/
inductive TimeUnit where
  | nanosecond
  | microsecond
  | millisecond
  | second
  | minute
  | hour
  | day
  | week
  | month
  | year
  deriving DecidableEq, Repr

namespace TimeUnit

/-- The names of each unit. -/
def names : List (TimeUnit × List String) :=
  [(nanosecond, ["nanos", "nsec", "ns"]),
   (microsecond, ["usec", "us", "µs"]),
   (millisecond, ["millis", "msec", "ms"]),
   (second, ["seconds", "second", "secs", "sec", "s"]),
   (minute, ["minutes", "minute", "min", "mins", "m"]),
   (hour, ["hours", "hour", "hr", "hrs", "h"]),
   (day, ["days", "day", "d"]),
   (week, ["weeks", "week", "wk", "wks", "w"]),
   (month, ["months", "month", "M"]),
   (year, ["years", "year", "yr", "yrs", "y"])]

/-- The unit of a name. -/
def ofName? (name : String) : Option TimeUnit :=
  (names.find? fun entry => entry.2.contains name).map Prod.fst

/-- The unit is counted in nanoseconds, not in seconds. -/
def isFine : TimeUnit → Bool
  | nanosecond => true
  | microsecond => true
  | millisecond => true
  | _ => false

/-- The fraction of the unit is counted in nanoseconds, not in seconds. -/
def isFineInFractions : TimeUnit → Bool
  | second => true
  | minute => true
  | u => u.isFine

/-- Seconds in a unit, a month being a twelfth of a year of 365.25 days. -/
def seconds : TimeUnit → Nat
  | second => 1
  | minute => 60
  | hour => 3600
  | day => 86400
  | week => 604800
  | month => 2630016
  | year => 31557600
  | _ => 0

/-- Nanoseconds in a unit. -/
def nanos : TimeUnit → Nat
  | nanosecond => 1
  | microsecond => 1000
  | millisecond => 1000000
  | u => u.seconds * nanosPerSecond

end TimeUnit

/-- Why a text is no span. -/
inductive WordsFault where
  | empty
  | numberExpected (offset : Nat)
  | invalidCharacter (offset : Nat)
  | unitNeeded (number : Nat)
  | unknownUnit (name : String)
  | tooPrecise
  | secondsExhausted
  deriving DecidableEq, Repr

/-- The fault in words. -/
def WordsFault.message : WordsFault → String
  | .empty => "value was empty"
  | .numberExpected o => "expected number at " ++ Text.numeral o
  | .invalidCharacter o => "invalid character at " ++ Text.numeral o
  | .unitNeeded n =>
      "time unit needed, for example " ++ Text.numeral n ++ "sec or " ++ Text.numeral n ++ "ms"
  | .unknownUnit name =>
      "unknown time unit \"" ++ name ++ "\", supported units: ns, us/µs, ms, sec, min, " ++
        "hours, days, weeks, months, years (and few variations)"
  | .tooPrecise =>
      "number is too large or cannot be represented without a lack of precision " ++
        "(values below 1ns are not supported)"
  | .secondsExhausted => "no room for another second"

/-- A number that has to fit into an unsigned word. -/
def word (n : Nat) : Except WordsFault Nat :=
  if n < wordLimit then .ok n else .error .tooPrecise

/-- A quotient that has to be whole. -/
def exactly (n d : Nat) : Except WordsFault Nat :=
  if n % d = 0 then .ok (n / d) else .error .tooPrecise

/-- The sum of a span, whole seconds and nanoseconds.  Nanoseconds that fill up
exactly one second are carried without a check of their own. -/
def plus (total : Span) (seconds nanos : Nat) : Except WordsFault Span := do
  let sub ← word (total.subNanos + nanos)
  match ofNanos? (total.nanos + seconds * nanosPerSecond + nanos) with
  | some sum => .ok sum
  | none =>
      if sub = nanosPerSecond ∧ total.seconds + seconds < wordLimit then
        .error .secondsExhausted
      else .error .tooPrecise

/-- The digits after a point: their value and the power of ten they are divided by. -/
structure Fraction where
  numerator : Nat
  denominator : Nat
  deriving DecidableEq, Repr

/-- The whole units of an item, added to a span. -/
def plusWhole (total : Span) (n : Nat) (u : TimeUnit) : Except WordsFault Span := do
  if u.isFine then
    plus total 0 (← word (n * u.nanos))
  else
    plus total (← word (n * u.seconds)) 0

/-- The fraction of an item, added to a span. -/
def plusFraction (total : Span) (f : Fraction) (u : TimeUnit) : Except WordsFault Span := do
  if u = .nanosecond then
    .error .tooPrecise
  else if u.isFineInFractions then
    let product ← word (f.numerator * u.nanos)
    plus total 0 (← exactly product f.denominator)
  else
    let product ← word (f.numerator * u.seconds)
    plus total (← exactly product f.denominator) 0

/-- An item, added to a span. -/
def plusItem (total : Span) (n : Nat) (f : Option Fraction) (name : List Char) :
    Except WordsFault Span := do
  let text := String.ofList name
  match TimeUnit.ofName? text with
  | none => .error (if text.isEmpty then .unitNeeded n else .unknownUnit text)
  | some u =>
      let sum ← plusWhole total n u
      match f with
      | none => .ok sum
      | some f => plusFraction sum f u

/-- A letter of a unit's name. -/
def isUnitLetter (c : Char) : Bool :=
  c.isAlpha || c == 'µ'

/-- What the reader has read of the current item, beside the sum so far. -/
inductive WordsMode where
  /-- Before a number; an item has been read or not, and the gap began at an offset. -/
  | gap (started : Bool) (start : Nat)
  /-- In the whole part of a number. -/
  | whole (n : Nat)
  /-- Behind the point, with the offset up to which the fraction is in order. -/
  | point (n : Nat) (f : Fraction) (mark : Nat)
  /-- In the name of a unit, its letters in reverse. -/
  | name (n : Nat) (f : Option Fraction) (letters : List Char)
  deriving DecidableEq, Repr

/-- Read one character at an offset. -/
def wordsStep (m : WordsMode) (total : Span) (offset : Nat) (c : Char) :
    Except WordsFault (WordsMode × Span) :=
  let behind := offset + c.utf8Size
  match m with
  | .gap started start =>
      match Text.digit? c with
      | some d => .ok (.whole d, total)
      | none =>
          if Text.isBlank c then .ok (.gap started start, total)
          else .error (.numberExpected start)
  | .whole n =>
      match Text.digit? c with
      | some d => do
          let n ← word (10 * n + d)
          .ok (.whole n, total)
      | none =>
          if Text.isBlank c then .ok (.whole n, total)
          else if isUnitLetter c then .ok (.name n none [c], total)
          else if c = '.' then .ok (.point n ⟨0, 1⟩ offset, total)
          else .error (.invalidCharacter offset)
  | .point n f mark =>
      match Text.digit? c with
      | some d => do
          let denominator ← word (10 * f.denominator)
          let numerator ← word (10 * f.numerator + d)
          .ok (.point n ⟨numerator, denominator⟩ behind, total)
      | none =>
          if Text.isBlank c then .ok (.point n f behind, total)
          else if isUnitLetter c && f.denominator != 1 then .ok (.name n (some f) [c], total)
          else .error (.invalidCharacter mark)
  | .name n f letters =>
      match Text.digit? c with
      | some d => do
          let total ← plusItem total n f letters.reverse
          .ok (.whole d, total)
      | none =>
          if Text.isBlank c then do
            let total ← plusItem total n f letters.reverse
            .ok (.gap true behind, total)
          else if isUnitLetter c then .ok (.name n f (c :: letters), total)
          else .error (.invalidCharacter offset)

/-- The sum at the end of the text. -/
def wordsEnd (m : WordsMode) (total : Span) : Except WordsFault Span :=
  match m with
  | .gap true _ => .ok total
  | .gap false _ => .error .empty
  | .whole n => plusItem total n none []
  | .point n f mark =>
      if f.denominator = 1 then .error (.invalidCharacter mark) else plusItem total n (some f) []
  | .name n f letters => plusItem total n f letters.reverse

/-- Read the rest of a text. -/
def scanWords (m : WordsMode) (total : Span) (offset : Nat) : List Char → Except WordsFault Span
  | [] => wordsEnd m total
  | c :: cs =>
      match wordsStep m total offset c with
      | .error f => .error f
      | .ok (m, total) => scanWords m total (offset + c.utf8Size) cs

/-- Read a span; a lone zero needs no unit. -/
def ofWords (cs : List Char) : Except WordsFault Span :=
  match cs with
  | ['0'] => .ok zero
  | cs => scanWords (.gap false 0) zero 0 cs

/-- An item of the printed sum, if there is anything of its unit. -/
def item (n : Nat) (name : String) : List String :=
  if n = 0 then [] else [Text.numeral n ++ name]

/-- An item whose unit has a plural. -/
def itemPlural (n : Nat) (name : String) : List String :=
  item n (if 1 < n then name ++ "s" else name)

/-- The span as a sum of items. -/
def toWords (s : Span) : String :=
  if s.nanos = 0 then "0s"
  else
    let inYear := s.seconds % 31557600
    let inMonth := inYear % 2630016
    let inDay := inMonth % 86400
    String.intercalate " " (
      itemPlural (s.seconds / 31557600) "year" ++
      itemPlural (inYear / 2630016) "month" ++
      itemPlural (inMonth / 86400) "day" ++
      item (inDay / 3600) "h" ++
      item (inDay % 3600 / 60) "m" ++
      item (inDay % 60) "s" ++
      item (s.subNanos / 1000000) "ms" ++
      item (s.subNanos / 1000 % 1000) "us" ++
      item (s.subNanos % 1000) "ns")

end Span
end Timetable
