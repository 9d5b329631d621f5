import Timetable.Crash
import Timetable.Setting

/-!
# Dialects

A configuration asks its settings for truth values, integers, texts, choices from a
few words, and the members of a record.  The exact dialect takes each of them only
in its own form.  The lenient dialect also takes what can be understood as such: a
number or one of a few words as a truth value, a number as a text, a word in letters
of any case as a choice.

A record is a table, whose further names are ignored, or a list of its members in
their order, of which the last ones may be missing.  The members of a table are
read in the order of their names; the first one that does not suit decides.
-/

namespace Timetable

/-- How settings are understood. -/
structure Dialect where
  truth : Setting → Option Bool
  whole : Setting → Option Int
  text : Setting → Option String
  /-- The choice of a word among some. -/
  choice : List String → Setting → Option String
  /-- A list may have more items than the record has members. -/
  extraItems : Bool

namespace Dialect

/-- Words for true. -/
def trueWords : List String := ["true", "on", "yes"]

/-- Words for false. -/
def falseWords : List String := ["false", "off", "no"]

/-- A truth value, or what can be understood as one. -/
def lenientTruth : Setting → Option Bool
  | .flag b => some b
  | .integer n => some (n != 0)
  | .float x => some x.isNonzero
  | .text s =>
      let word := Text.lowercase s
      if word = "1" ∨ word ∈ trueWords then some true
      else if word = "0" ∨ word ∈ falseWords then some false
      else none
  | _ => none

/-- An integer, or what can be understood as one. -/
def lenientWhole : Setting → Option Int
  | .flag b => some (if b then 1 else 0)
  | .integer n => some n
  | .float x => some (x.toWord Text.wordMin Text.wordMax)
  | .text s =>
      let word := Text.lowercase s
      if word ∈ trueWords then some 1
      else if word ∈ falseWords then some 0
      else (Text.readNumeral s.toList).toOption
  | _ => none

/-- A text, or what can be written as one. -/
def lenientText : Setting → Option String
  | .flag b => some (if b then "true" else "false")
  | .integer n => some (Text.numeral n)
  | .float x => some x.toText
  | .text s => some s
  | _ => none

/-- The word among some that a text is, in letters of any case. -/
def wordIn (words : List String) (s : String) : Option String :=
  words.find? fun word => word == Text.lowercase s

/-- A choice in letters of any case, or a table whose only name is one. -/
def lenientChoice (words : List String) : Setting → Option String
  | .text s => wordIn words s
  | .table [(name, _)] => wordIn words name
  | _ => none

/-- The dialect of layered sources. -/
def lenient : Dialect where
  truth := lenientTruth
  whole := lenientWhole
  text := lenientText
  choice := lenientChoice
  extraItems := true

/-- A truth value. -/
def exactTruth : Setting → Option Bool
  | .flag b => some b
  | _ => none

/-- An integer. -/
def exactWhole : Setting → Option Int
  | .integer n => some n
  | _ => none

/-- A text. -/
def exactText : Setting → Option String
  | .text s => some s
  | _ => none

/-- A choice, or a table whose only name is one and says nothing. -/
def exactChoice (words : List String) : Setting → Option String
  | .text s => words.find? (· == s)
  | .table [(name, .none)] => words.find? (· == name)
  | _ => none

/-- The dialect of a single source. -/
def exact : Dialect where
  truth := exactTruth
  whole := exactWhole
  text := exactText
  choice := exactChoice
  extraItems := false

/-- Why a setting is not read. -/
inductive Misfit where
  | unsuitable
  /-- Reading it left a machine word. -/
  | crash (c : Crash)
  deriving DecidableEq, Repr

/-- What suits, if there is anything. -/
def suited {α : Type} : Option α → Except Misfit α
  | some a => .ok a
  | none => .error .unsuitable

/-- The members of a record, found by place or by name. -/
structure Members where
  get? : Nat → String → Option Setting
  byName : Bool

/-- The members of a record with so many of them. -/
def members (d : Dialect) (count : Nat) : Setting → Except Misfit Members
  | .table fs => .ok ⟨fun _ name => Setting.field? name fs, true⟩
  | .list items =>
      if !d.extraItems && count < items.length then .error .unsuitable
      else .ok ⟨fun place _ => items[place]?, false⟩
  | _ => .error .unsuitable

/-- A member that may be missing. -/
def member {α : Type} (found : Option Setting) (missing : α)
    (read : Setting → Except Misfit α) : Except Misfit α :=
  match found with
  | none => .ok missing
  | some s => read s

/-- A member that must not be missing. -/
def required {α : Type} (found : Option Setting) (read : Setting → Except Misfit α) :
    Except Misfit α :=
  match found with
  | none => .error .unsuitable
  | some s => read s

end Dialect
end Timetable
