import Timetable.Binary64

/-!
# Values

A value is what a file or a payload can say: nothing, a truth value, a number, a
text, a list, or a table of named values in the order in which they were given.
An integer is kept apart from a number in binary floating point.
-/

namespace Timetable

/-- What a file or a payload can say. -/
inductive Value where
  | null
  | boolean (b : Bool)
  | integer (n : Int)
  | float (x : Binary64)
  | text (s : String)
  | list (items : List Value)
  | table (fields : List (String × Value))
  deriving Repr

namespace Value

instance : Inhabited Value :=
  ⟨null⟩

/-- The value of a field; of fields with one name the last one counts. -/
def field? (name : String) (fields : List (String × Value)) : Option Value :=
  (fields.reverse.find? fun f => f.1 == name).map Prod.snd

/-- The fields without those whose name comes again. -/
def lastOfEach : List (String × Value) → List (String × Value)
  | [] => []
  | f :: rest => if rest.any (·.1 == f.1) then lastOfEach rest else f :: lastOfEach rest

end Value
end Timetable
