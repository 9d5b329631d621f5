import Timetable.Binary64.Text
import Timetable.Json

/-!
# Printing JSON

A value is printed without blanks, its fields in their order.  A float is printed
with the fewest digits that read back: with a point if its first digit stands at
most five places behind it or sixteen before it, and otherwise with an exponent.
What is no finite number is printed as null.

Inside a text a quote, a backslash and the characters before the space are
escaped, and all else stands for itself.
-/

namespace Timetable
namespace Json

/-- The digit of a number below sixteen. -/
def hexDigit (n : Nat) : Char :=
  Nat.digitChar n

/-- A character inside quotes. -/
def escapeChar (c : Char) : List Char :=
  if c = '"' then ['\\', '"']
  else if c = '\\' then ['\\', '\\']
  else if c = '\n' then ['\\', 'n']
  else if c = '\r' then ['\\', 'r']
  else if c = '\t' then ['\\', 't']
  else if c.toNat = 8 then ['\\', 'b']
  else if c.toNat = 12 then ['\\', 'f']
  else if c.toNat < 32 then
    ['\\', 'u', '0', '0', hexDigit (c.toNat / 16), hexDigit (c.toNat % 16)]
  else [c]

/-- A text between quotes. -/
def printText (s : String) : String :=
  String.ofList ('"' :: s.toList.flatMap escapeChar ++ ['"'])

/-- Digits with a point after so many of them, and an exponent. -/
def withExponent (ds : List Char) (exponent : Int) : List Char :=
  let part := ds.drop 1
  ds.take 1 ++ (if part.isEmpty then [] else '.' :: part) ++ 'e' :: (Text.numeral exponent).toList

/-- A decimal whose first digit stands so many places before the point. -/
def printDigits (ds : List Char) (places : Int) : List Char :=
  if ds.length ≤ places ∧ places ≤ 16 then
    ds ++ List.replicate (places.toNat - ds.length) '0' ++ ['.', '0']
  else if 0 < places ∧ places ≤ 16 then ds.take places.toNat ++ '.' :: ds.drop places.toNat
  else if -5 < places ∧ places ≤ 0 then
    '0' :: '.' :: List.replicate (-places).toNat '0' ++ ds
  else withExponent ds (places - 1)

/-- A float. -/
def printFloat : Binary64 → String
  | .finite negative m e =>
      let ds :=
        if m = 0 then ['0', '.', '0']
        else
          let p := Binary64.shortest m e
          let ds := Text.digits p.digits
          printDigits ds (ds.length + p.exponent)
      String.ofList (if negative then '-' :: ds else ds)
  | _ => "null"

mutual

/-- A value in JSON. -/
def print : Value → String
  | .null => "null"
  | .boolean b => if b then "true" else "false"
  | .integer n => Text.numeral n
  | .float x => printFloat x
  | .text s => printText s
  | .list items => "[" ++ String.intercalate "," (printItems items) ++ "]"
  | .table fields => "\x7b" ++ String.intercalate "," (printFields fields) ++ "\x7d"

/-- The items of a list. -/
def printItems : List Value → List String
  | [] => []
  | v :: vs => print v :: printItems vs

/-- The fields of a table. -/
def printFields : List (String × Value) → List String
  | [] => []
  | (name, v) :: rest => (printText name ++ ":" ++ print v) :: printFields rest

end

end Json
end Timetable
