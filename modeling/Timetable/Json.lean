import Timetable.Text.Numeral
import Timetable.Value

/-!
# Reading JSON

A text in JSON is one value with blanks around it.  Of fields with one name the last
one counts.  Lists and tables may be nested less deeply than a limit.

Digits alone are an integer, if they fit into a word; any other number is a float.
Its digits fill an unsigned word from the left as far as they fit, and the word is
scaled by a power of ten in binary floating point; the digits that are left out only
count for the power.  A float beyond the format is refused.

The reader goes through the characters from the left; each part takes what it
understands and hands on the rest.  Lists, tables and strings take at least one
character in each round, so the number of characters bounds the rounds.
-/

namespace Timetable
namespace Json

/-- What a part has read, and the rest of the text. -/
abbrev Taken (α : Type) := Option (α × List Char)

/-- A blank of JSON. -/
def isBlank (c : Char) : Bool :=
  c == ' ' || c == '\t' || c == '\n' || c == '\r'

/-- The text without blanks at its beginning. -/
def skip (cs : List Char) : List Char :=
  cs.dropWhile isBlank

/-- Take a word. -/
def takeWord (word : String) (v : Value) (cs : List Char) : Taken Value :=
  if word.toList.isPrefixOf cs then some (v, cs.drop word.length) else none

/-- The value of a digit in base sixteen. -/
def hexDigit? (c : Char) : Option Nat :=
  if c.isDigit then some (c.toNat - '0'.toNat)
  else if 'a' ≤ c ∧ c ≤ 'f' then some (c.toNat - 'a'.toNat + 10)
  else if 'A' ≤ c ∧ c ≤ 'F' then some (c.toNat - 'A'.toNat + 10)
  else none

/-- Take four digits in base sixteen. -/
def takeCode : List Char → Taken Nat
  | a :: b :: c :: d :: cs =>
      match hexDigit? a, hexDigit? b, hexDigit? c, hexDigit? d with
      | some a, some b, some c, some d => some (4096 * a + 256 * b + 16 * c + d, cs)
      | _, _, _, _ => none
  | _ => none

/-- Take a character by its code, which may come in two halves. -/
def takeCoded (cs : List Char) : Taken Char :=
  match takeCode cs with
  | none => none
  | some (high, rest) =>
      if 0xd800 ≤ high ∧ high < 0xdc00 then
        match rest with
        | '\\' :: 'u' :: rest =>
            match takeCode rest with
            | some (low, rest) =>
                if 0xdc00 ≤ low ∧ low < 0xe000 then
                  some (Char.ofNat (0x10000 + (high - 0xd800) * 1024 + (low - 0xdc00)), rest)
                else none
            | none => none
        | _ => none
      else if 0xdc00 ≤ high ∧ high < 0xe000 then none
      else some (Char.ofNat high, rest)

/-- Take the character behind a backslash. -/
def takeEscaped : List Char → Taken Char
  | '"' :: cs => some ('"', cs)
  | '\\' :: cs => some ('\\', cs)
  | '/' :: cs => some ('/', cs)
  | 'b' :: cs => some (Char.ofNat 8, cs)
  | 'f' :: cs => some (Char.ofNat 12, cs)
  | 'n' :: cs => some ('\n', cs)
  | 'r' :: cs => some ('\r', cs)
  | 't' :: cs => some ('\t', cs)
  | 'u' :: cs => takeCoded cs
  | _ => none

/-- Take the rest of a string behind its first quote, in so many rounds at most; what was
read stands in reverse. -/
def takeString : Nat → List Char → List Char → Taken String
  | 0, _, _ => none
  | _ + 1, _, [] => none
  | _ + 1, seen, '"' :: cs => some (String.ofList seen.reverse, cs)
  | n + 1, seen, '\\' :: cs =>
      match takeEscaped cs with
      | some (c, cs) => takeString n (c :: seen) cs
      | none => none
  | n + 1, seen, c :: cs => if c.toNat < 32 then none else takeString n (c :: seen) cs

/-- Take digits. -/
def takeDigits (cs : List Char) : List Nat × List Char :=
  ((cs.takeWhile Char.isDigit).map fun d => d.toNat - '0'.toNat, cs.dropWhile Char.isDigit)

/-- A number with one more digit, if it fits into an unsigned word. -/
def withDigit? (n d : Nat) : Option Nat :=
  if 10 * n + d < wordLimit then some (10 * n + d) else none

/-- Digits before the point: the word that they fill, and how many of them are left out.  The
first digit that does not fit and all behind it are left out. -/
def fillWhole (n : Nat) : List Nat → Nat × Nat
  | [] => (n, 0)
  | d :: ds =>
      match withDigit? n d with
      | some n => fillWhole n ds
      | none => (n, ds.length + 1)

/-- Digits behind the point: the word that they fill further, and how many of them do. -/
def fillPart (n : Nat) : List Nat → Nat × Nat
  | [] => (n, 0)
  | d :: ds =>
      match withDigit? n d with
      | some n =>
          let (n, places) := fillPart n ds
          (n, places + 1)
      | none => (n, 0)

/-- Take the exponent of a number, if it has one. -/
def takeExponent : List Char → Option (Option Int × List Char)
  | e :: cs =>
      if e == 'e' || e == 'E' then
        let (negative, cs) := match cs with
          | '+' :: cs => (false, cs)
          | '-' :: cs => (true, cs)
          | cs => (false, cs)
        match takeDigits cs with
        | ([], _) => none
        | (ds, cs) =>
            let n : Nat := ds.foldl (fun n d => 10 * n + d) 0
            some (some (if negative then -(n : Int) else n), cs)
      else some (none, e :: cs)
  | [] => some (none, [])

/-- A number of digits alone: an integer if it fits into a word, and else a float, as is a
zero with a minus sign. -/
def integer? (negative : Bool) (n left : Nat) : Option Value :=
  if left ≠ 0 then (Binary64.scaled? negative n left).map Value.float
  else if negative then
    if n ≠ 0 ∧ Text.wordMin ≤ -(n : Int) then some (.integer (-(n : Int)))
    else (Binary64.scaled? true n 0).map Value.float
  else some (.integer n)

/-- Take a number without its sign. -/
def takeUnsigned (negative : Bool) (cs : List Char) : Taken Value :=
  match takeDigits cs with
  | ([], _) => none
  | (ds, rest) =>
      if cs.head? == some '0' && ds.length != 1 then none
      else
        let (n, left) := fillWhole 0 ds
        let float (n : Nat) (e : Int) := (Binary64.scaled? negative n e).map Value.float
        match rest with
        | '.' :: rest =>
            match takeDigits rest with
            | ([], _) => none
            | (ds, rest) =>
                let (n, places) := fillPart n ds
                (takeExponent rest).bind fun e =>
                  (float n (e.1.getD 0 + left - places)).map (·, e.2)
        | rest =>
            match takeExponent rest with
            | none => none
            | some (none, rest) => (integer? negative n left).map (·, rest)
            | some (some e, rest) => (float n (e + left)).map (·, rest)

/-- Take a number. -/
def takeNumber : List Char → Taken Value
  | '-' :: cs => takeUnsigned true cs
  | cs => takeUnsigned false cs

/-- The limit of nesting. -/
def deepest : Nat := 127

mutual

/-- Take a value, in so many rounds and with so many levels at most. -/
def takeValue (rounds levels : Nat) (cs : List Char) : Taken Value :=
  match rounds with
  | 0 => none
  | n + 1 =>
      match skip cs with
      | [] => none
      | '"' :: rest => (takeString rest.length.succ [] rest).map fun r => (.text r.1, r.2)
      | '[' :: rest =>
          if levels = 0 then none
          else
            match skip rest with
            | ']' :: rest => some (.list [], rest)
            | rest => (takeItems n (levels - 1) rest).map fun r => (.list r.1, r.2)
      | '\x7b' :: rest =>
          if levels = 0 then none
          else
            match skip rest with
            | '\x7d' :: rest => some (.table [], rest)
            | rest => (takeFields n (levels - 1) rest).map fun r =>
                (.table (Value.lastOfEach r.1), r.2)
      | 'n' :: rest => takeWord "null" .null ('n' :: rest)
      | 't' :: rest => takeWord "true" (.boolean true) ('t' :: rest)
      | 'f' :: rest => takeWord "false" (.boolean false) ('f' :: rest)
      | c :: rest => takeNumber (c :: rest)

/-- Take the items of a list up to its end. -/
def takeItems (rounds levels : Nat) (cs : List Char) : Taken (List Value) :=
  match rounds with
  | 0 => none
  | n + 1 =>
      match takeValue n levels cs with
      | none => none
      | some (v, rest) =>
          match skip rest with
          | ']' :: rest => some ([v], rest)
          | ',' :: rest => (takeItems n levels rest).map fun r => (v :: r.1, r.2)
          | _ => none

/-- Take the fields of a table up to its end. -/
def takeFields (rounds levels : Nat) (cs : List Char) : Taken (List (String × Value)) :=
  match rounds with
  | 0 => none
  | n + 1 =>
      match skip cs with
      | '"' :: rest =>
          match takeString rest.length.succ [] rest with
          | none => none
          | some (name, rest) =>
              match skip rest with
              | ':' :: rest =>
                  match takeValue n levels rest with
                  | none => none
                  | some (v, rest) =>
                      match skip rest with
                      | '\x7d' :: rest => some ([(name, v)], rest)
                      | ',' :: rest =>
                          (takeFields n levels rest).map fun r => ((name, v) :: r.1, r.2)
                      | _ => none
              | _ => none
      | _ => none

end

/-- Read a text in JSON. -/
def read (text : String) : Option Value :=
  let cs := text.toList
  match takeValue (2 * cs.length + 1) deepest cs with
  | some (v, rest) => if (skip rest).isEmpty then some v else none
  | none => none

end Json
end Timetable
