import Timetable.Field

/-!
# Layouts

A layout says which fields the text of an expression has, and whether a
descriptor may stand in place of all fields.  The fields have a fixed order.  A
time field that is left out stands for its lowest number, and a date field that
is left out for no restriction.
-/

namespace Timetable

/-- The parts that the text of an expression may have. -/
inductive Part where
  | second
  | minute
  | hour
  | dayOfMonth
  | month
  | dayOfWeek
  | descriptor
  deriving DecidableEq, Repr

namespace Part

/-- All parts, in the order of the text. -/
def all : List Part :=
  [second, minute, hour, dayOfMonth, month, dayOfWeek, descriptor]

/-- The fields, in the order of the text. -/
def fields : List Part :=
  [second, minute, hour, dayOfMonth, month, dayOfWeek]

/-- The short name of the part. -/
def name : Part → String
  | second => "second"
  | minute => "minute"
  | hour => "hour"
  | dayOfMonth => "dom"
  | month => "month"
  | dayOfWeek => "dow"
  | descriptor => "descriptor"

/-- The part of a short name. -/
def ofName? (name : String) : Option Part :=
  all.find? fun p => p.name == name

/-- The weight of the part in the number of a layout. -/
def weight : Part → Nat
  | second => 1
  | minute => 2
  | hour => 4
  | dayOfMonth => 8
  | month => 16
  | dayOfWeek => 32
  | descriptor => 64

/-- The text of a field that is left out. -/
def standIn : Part → List Char
  | second => ['0']
  | minute => ['0']
  | hour => ['0']
  | _ => ['*']

/-- The bounds of a field. -/
def bounds : Part → Bounds
  | second => Bounds.seconds
  | minute => Bounds.minutes
  | hour => Bounds.hours
  | dayOfMonth => Bounds.daysOfMonth
  | month => Bounds.months
  | _ => Bounds.daysOfWeek

end Part

/-- Which parts the text of an expression may have. -/
structure Layout where
  second : Bool := false
  minute : Bool := false
  hour : Bool := false
  dayOfMonth : Bool := false
  month : Bool := false
  dayOfWeek : Bool := false
  descriptor : Bool := false
  deriving DecidableEq, Repr

namespace Layout

/-- The layout has a part. -/
def has (l : Layout) : Part → Bool
  | .second => l.second
  | .minute => l.minute
  | .hour => l.hour
  | .dayOfMonth => l.dayOfMonth
  | .month => l.month
  | .dayOfWeek => l.dayOfWeek
  | .descriptor => l.descriptor

/-- The layout of a list of parts. -/
def ofParts (ps : List Part) : Layout where
  second := ps.contains .second
  minute := ps.contains .minute
  hour := ps.contains .hour
  dayOfMonth := ps.contains .dayOfMonth
  month := ps.contains .month
  dayOfWeek := ps.contains .dayOfWeek
  descriptor := ps.contains .descriptor

/-- The parts of the layout, in the order of the text. -/
def parts (l : Layout) : List Part :=
  Part.all.filter l.has

/-- The number of fields of the text. -/
def fieldCount (l : Layout) : Nat :=
  (Part.fields.filter l.has).length

/-- The layout has all parts of another one. -/
def includes (l other : Layout) : Bool :=
  Part.all.all fun p => !other.has p || l.has p

/-- The short names of the parts, with bars between them. -/
def display (l : Layout) : String :=
  String.intercalate "|" (l.parts.map Part.name)

/-- The sum of the weights of the parts. -/
def number (l : Layout) : Nat :=
  (l.parts.map Part.weight).foldl (· + ·) 0

/-- Five fields from minutes on, or a descriptor. -/
def standard : Layout :=
  ofParts [.minute, .hour, .dayOfMonth, .month, .dayOfWeek, .descriptor]

/-- Six fields from seconds on, or a descriptor. -/
def withSeconds : Layout :=
  ofParts Part.all

/-- The layout without a part. -/
def without (l : Layout) (p : Part) : Layout :=
  ofParts (l.parts.filter (· ≠ p))

/-- How many fields of the text stand before a part. -/
def position (l : Layout) (p : Part) : Nat :=
  ((Part.fields.takeWhile (· ≠ p)).filter l.has).length

/-- The text of a field: the given one at its position, or its stand-in. -/
def fieldText (l : Layout) (texts : List (List Char)) (p : Part) : List Char :=
  if l.has p then texts.getD (l.position p) p.standIn else p.standIn

@[simp] theorem has_ofParts (ps : List Part) (p : Part) :
    (ofParts ps).has p = ps.contains p := by
  cases p <;> rfl

/-- A field that the layout leaves out has its stand-in as text. -/
theorem fieldText_of_not_has {l : Layout} {p : Part} (texts : List (List Char))
    (h : l.has p = false) : l.fieldText texts p = p.standIn := by
  simp [fieldText, h]

end Layout
end Timetable
