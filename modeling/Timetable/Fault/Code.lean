import Timetable.Value

/-!
# Codes of faults

Every fault has a code: a name, a number and a category.  The number begins
with the digit of its category.
-/

namespace Timetable

/-- The kind of a fault. -/
inductive Code where
  | emptySpec
  | invalidField
  | fieldCount
  | descriptorsDisabled
  | unrecognizedDescriptor
  | invalidDuration
  | unknownTimezone
  | intervalTooShort
  | runtimeUnavailable
  | invalidConfiguration
  deriving DecidableEq, Repr

namespace Code

/-- All codes. -/
def all : List Code :=
  [emptySpec, invalidField, fieldCount, descriptorsDisabled, unrecognizedDescriptor,
   invalidDuration, unknownTimezone, intervalTooShort, runtimeUnavailable,
   invalidConfiguration]

/-- The name of the code. -/
def name : Code → String
  | emptySpec => "EMPTY_SPEC"
  | invalidField => "INVALID_FIELD"
  | fieldCount => "FIELD_COUNT"
  | descriptorsDisabled => "DESCRIPTORS_DISABLED"
  | unrecognizedDescriptor => "UNRECOGNIZED_DESCRIPTOR"
  | invalidDuration => "INVALID_DURATION"
  | unknownTimezone => "UNKNOWN_TIMEZONE"
  | intervalTooShort => "INTERVAL_TOO_SHORT"
  | runtimeUnavailable => "RUNTIME_UNAVAILABLE"
  | invalidConfiguration => "INVALID_CONFIGURATION"

/-- The number of the code. -/
def number : Code → Nat
  | emptySpec => 1000
  | invalidField => 1001
  | fieldCount => 1002
  | descriptorsDisabled => 1003
  | unrecognizedDescriptor => 1004
  | invalidDuration => 1005
  | unknownTimezone => 1006
  | intervalTooShort => 1100
  | runtimeUnavailable => 2000
  | invalidConfiguration => 5000

/-- The category of the code. -/
def category : Code → String
  | intervalTooShort => "schedule"
  | runtimeUnavailable => "runtime"
  | invalidConfiguration => "configuration"
  | _ => "expression"

/-- The fault lies in what the caller wrote, not in where the program runs. -/
def isConfiguration : Code → Bool
  | runtimeUnavailable => false
  | _ => true

/-- The code of a name. -/
def ofName? (name : String) : Option Code :=
  all.find? fun c => c.name == name

/-- The code that a value names: a text, or a table with the name as its only one, which says
nothing. -/
def ofValue? : Value → Option Code
  | .text name => ofName? name
  | .table [(name, .null)] => ofName? name
  | _ => none

theorem mem_all (c : Code) : c ∈ all := by
  cases c <;> decide

/-- A code is found by its name. -/
theorem ofName?_name (c : Code) : ofName? c.name = some c := by
  cases c <;> decide

/-- No two codes have the same name. -/
theorem name_injective {a b : Code} (h : a.name = b.name) : a = b := by
  have ha := ofName?_name a
  rw [h, ofName?_name b] at ha
  exact (Option.some.inj ha).symm

end Code
end Timetable
