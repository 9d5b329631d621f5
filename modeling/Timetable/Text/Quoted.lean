import Timetable.Text.Hidden

/-!
# Quoted texts

A quoted text stands between two quotes.  Inside, a quote and a backslash
follow a backslash, the null, tab and line characters have a letter of their
own, and every other hidden character is written by its code in braces.  A list
is written with its quoted items between brackets.
-/

namespace Timetable
namespace Text

/-- The digits of a number in base sixteen, in small letters. -/
def hexDigits (n : Nat) : List Char :=
  Nat.toDigits 16 n

/-- A character by its code. -/
def escapeCode (c : Char) : List Char :=
  "\\u\x7b".toList ++ hexDigits c.toNat ++ "\x7d".toList

/-- A character inside quotes. -/
def quoteChar (c : Char) : List Char :=
  if c = '"' then ['\\', '"']
  else if c = '\\' then ['\\', '\\']
  else if c = '\n' then ['\\', 'n']
  else if c = '\r' then ['\\', 'r']
  else if c = '\t' then ['\\', 't']
  else if c.toNat = 0 then ['\\', '0']
  else if isHidden c then escapeCode c
  else [c]

/-- A text between quotes. -/
def quote (s : String) : String :=
  String.ofList ('"' :: s.toList.flatMap quoteChar ++ ['"'])

/-- The quoted items of a list, between brackets. -/
def quoteList (items : List String) : String :=
  "[" ++ String.intercalate ", " (items.map quote) ++ "]"

/-- A pair of quoted texts, between parentheses. -/
def quotePair (p : String × String) : String :=
  "(" ++ quote p.1 ++ ", " ++ quote p.2 ++ ")"

/-- Quoted pairs, between brackets. -/
def quotePairs (items : List (String × String)) : String :=
  "[" ++ String.intercalate ", " (items.map quotePair) ++ "]"

end Text
end Timetable
