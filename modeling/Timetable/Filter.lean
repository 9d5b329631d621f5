import Timetable.Config
import Timetable.Text.Alphanumeric
import Timetable.Text.Blank

/-!
# Filters of the log

A filter is a list of directives.  A directive is a level, or a target with or
without a level behind an equals sign.  It begins with a letter, a number or one of
three marks, and a comma ends it.

Blanks around a directive are passed over when it is searched for its marks, but
its target and its level are cut out of the whole directive, at the byte offsets
that the marks have without the blanks.  So blanks in front move both of them, and
blanks behind belong to the level.  A cut inside a character is a crash.
-/

namespace Timetable
namespace Filter

/-- Names of levels. -/
def levelNames : List String :=
  ["off", "error", "warn", "info", "debug", "trace"]

/-- The numeral of a level, from 0 for none to 5 for everything. -/
def isLevelNumeral (text : List Char) : Bool :=
  match Text.readNumeral text with
  | .ok n => text.head? != some '-' && decide (n ≤ 5)
  | .error _ => false

/-- A level, which may be left out. -/
def isLevel (text : List Char) : Bool :=
  text.isEmpty || isLevelNumeral text ||
    levelNames.any fun name => Text.sameLetters name.toList text

/-- A character with which a directive may begin. -/
def isDirectiveStart (c : Char) : Bool :=
  Text.isAlphanumeric c || c == '-' || c == ':' || c == '_'

/-- The bytes of a text. -/
def byteCount : List Char → Nat
  | [] => 0
  | c :: text => c.utf8Size + byteCount text

/-- A text cut in two after so many bytes, unless the cut is inside a character. -/
def cut? : Nat → List Char → Option (List Char × List Char)
  | 0, text => some ([], text)
  | _ + 1, [] => none
  | n + 1, c :: text =>
      if c.utf8Size ≤ n + 1 then
        (cut? (n + 1 - c.utf8Size) text).map fun parts => (c :: parts.1, parts.2)
      else none
termination_by _ text => text

/-- The part of a text between two byte offsets, unless one of them is inside a character. -/
def slice? (first last : Nat) (text : List Char) : Option (List Char) := do
  let (front, _) ← cut? last text
  let (_, middle) ← cut? first front
  some middle

/-- The level that ends a directive is in order.  The trimmed directive consists of a target,
an equals sign and a tail. -/
def endsInOrder (whole target tail : List Char) : Except Crash Bool :=
  let start := byteCount target + 1
  let stop :=
    if tail.contains ',' then start + byteCount (tail.takeWhile (· ≠ ',')) else byteCount whole
  match slice? 0 (start - 1) whole, slice? start stop whole with
  | some _, some level => .ok (isLevel level && (tail.dropWhile (· ≠ ',')).length ≤ 1)
  | _, _ => .error .slicing

/-- A directive is in order. -/
def isDirective (whole : List Char) : Except Crash Bool :=
  let text := Text.trim whole
  if !(text.head?).any isDirectiveStart then .ok false
  else
    let mark (c : Char) : Bool := c == '=' || c == ','
    match text.dropWhile fun c => !mark c with
    | '=' :: tail => endsInOrder whole (text.takeWhile fun c => !mark c) tail
    | rest => .ok (rest.length ≤ 1)

/-- The directives of a level and of the levels of modules. -/
def directives (level : String) (moduleLevels : List (String × String)) : List (List Char) :=
  (Text.pieces (· == ',') level.toList).filter (fun d => !d.isEmpty) ++
    moduleLevels.map fun m => m.1.toList ++ '=' :: m.2.toList

/-- All directives of a list are in order; the first that is not decides. -/
def areDirectives : List (List Char) → Except Crash Bool
  | [] => .ok true
  | d :: ds => do
      if ← isDirective d then areDirectives ds else .ok false

/-- A level and the levels of modules make a filter. -/
def isFilter (level : String) (moduleLevels : List (String × String)) : Except Crash Bool :=
  areDirectives (directives level moduleLevels)

end Filter
end Timetable
