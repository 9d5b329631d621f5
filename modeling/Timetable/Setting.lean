import Timetable.Binary64.Text
import Timetable.Text.Pieces
import Timetable.Text.Lowercase
import Timetable.Value

/-!
# Settings

A setting is what a configuration source says under a name.  Sources are laid one
over the other: a table is merged into a table that is there, anything else takes
the place of what is there, and setting something below what is no table makes a
table of it.

The names in tables are in small letters, but not those inside lists.  The name
of a setting at the top may be a path of names with points between them.
-/

namespace Timetable

/-- What a configuration source says. -/
inductive Setting where
  | none
  | flag (b : Bool)
  | integer (n : Int)
  | float (x : Binary64)
  | text (s : String)
  | list (items : List Setting)
  | table (fields : List (String × Setting))

namespace Setting

instance : Inhabited Setting :=
  ⟨none⟩

/-- An integer that fits into a signed word; any other one is a float. -/
def ofInteger (n : Int) : Setting :=
  if Text.wordMin ≤ n ∧ n ≤ Text.wordMax then integer n else float (Binary64.ofInt n)

mutual

/-- The setting that a value says. -/
def ofValue : Value → Setting
  | .null => none
  | .boolean b => flag b
  | .integer n => ofInteger n
  | .float x => float x
  | .text s => text s
  | .list items => list (ofValues items)
  | .table fields => table (ofFields fields)

/-- The settings that values say. -/
def ofValues : List Value → List Setting
  | [] => []
  | v :: vs => ofValue v :: ofValues vs

/-- The settings that named values say. -/
def ofFields : List (String × Value) → List (String × Setting)
  | [] => []
  | (name, v) :: rest => (name, ofValue v) :: ofFields rest

end

/-- The fields of a table; anything else has none. -/
def fields : Setting → List (String × Setting)
  | table fs => fs
  | _ => []

/-- The setting under a name; of settings with one name the last one counts. -/
def field? (name : String) (fs : List (String × Setting)) : Option Setting :=
  (fs.reverse.find? fun f => f.1 == name).map Prod.snd

/-- The fields with a setting under a name, in place of what was there. -/
def assign (name : String) (s : Setting) (fs : List (String × Setting)) :
    List (String × Setting) :=
  fs.filter (fun f => f.1 != name) ++ [(name, s)]

mutual

/-- Lay a setting under a name into a table; what is no table becomes one. -/
def lay (root : Setting) (name : String) : Setting → Setting
  | table fs =>
      let key := Text.lowercase name
      let below := (field? key root.fields).getD (table [])
      table (assign key (layAll below fs) root.fields)
  | s => table (assign (Text.lowercase name) s root.fields)

/-- Lay fields into a table. -/
def layAll (root : Setting) : List (String × Setting) → Setting
  | [] => root
  | (name, s) :: rest => layAll (lay root name s) rest

end

/-- Lay a setting at the end of a path. -/
def layAt (root : Setting) (s : Setting) : List String → Setting
  | [] => root
  | [name] => lay root name s
  | name :: rest =>
      let key := Text.lowercase name
      let below := (field? key root.fields).getD (table [])
      table (assign key (layAt below s rest) root.fields)

/-- A character of a name in a path. -/
def isPathChar (c : Char) : Bool :=
  c.isAlphanum || c == ' ' || c == '_' || c == '-'

/-- The path that a name at the top stands for; a name that is no path stands for itself. -/
def pathOf (name : String) : List String :=
  let parts := Text.pieces (· == '.') name.toList
  if parts.all fun p => !p.isEmpty && p.all isPathChar then parts.map String.ofList else [name]

/-- Lay the fields of a source over a setting. -/
def overlay (root : Setting) (source : List (String × Setting)) : Setting :=
  source.foldl (fun root f => layAt root f.2 (pathOf f.1)) root

/-- What a variable of the environment says. -/
def ofVariable (s : String) : Setting :=
  let small := Text.lowercase s
  if small = "true" then flag true
  else if small = "false" then flag false
  else
    match Text.readNumeral s.toList with
    | .ok n => integer n
    | .error _ =>
        match Binary64.ofText? s.toList with
        | some x => float x
        | .none => text s

/-- How the names of variables begin. -/
def variableLead : List Char :=
  "cronwheel__".toList

/-- The name that a variable has as a setting: what follows the lead, in small letters and
with points for pairs of underscores. -/
def variableName? (name : String) : Option String :=
  let small := (Text.lowercase name).toList
  if variableLead.isPrefixOf small then
    some ((String.ofList (small.drop variableLead.length)).replace "__" ".")
  else .none

/-- The source that the environment is. -/
def ofEnvironment (env : List (String × String)) : List (String × Setting) :=
  env.filterMap fun v => (variableName? v.1).map fun name => (name, ofVariable v.2)

end Setting
end Timetable
