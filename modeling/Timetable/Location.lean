import Timetable.Zone.Listed
import Timetable.Text.Caseless

/-!
# Locations

A location says whose wall clock an expression speaks of: the one on the wall
here, or that of a named zone.  How the clock here runs, and which zones are
found by which names, is for others to say; the listed zones, with a clock here
that runs without offset, serve where nothing else is said.
-/

namespace Timetable

/-- The clocks that are known: the one on the wall here, and those that have names. -/
structure Zones where
  here : Zone
  named : String → Option Zone

/-- The listed zones, with a clock here that runs without offset. -/
def Zones.listed : Zones :=
  ⟨Zone.utc, Zone.ofName?⟩

/-- The place whose clock is read. -/
inductive Location where
  | here (clock : Zone)
  | zone (z : Zone)
  deriving DecidableEq, Repr

namespace Location

instance : Inhabited Location :=
  ⟨here Zone.utc⟩

/-- The location whose clock runs without offset. -/
def utc : Location :=
  zone Zone.utc

/-- The location of a name: local in letters of any case, or a zone that is found by the
name. -/
def ofName? (zones : Zones) (name : String) : Option Location :=
  if Text.sameLetters name.toList "local".toList then some (here zones.here)
  else (zones.named name).map zone

/-- The name of the location. -/
def name : Location → String
  | here _ => "Local"
  | zone z => z.name

/-- The history of offsets of the location's clock. -/
def clock : Location → Zone
  | here clock => clock
  | zone z => z

/-- What the clock shows at an instant, if the calendar has it. -/
def reading? (l : Location) (i : Instant) : Option Reading :=
  l.clock.reading? i

/-- The offset of the clock at an instant, in seconds. -/
def offsetAt (l : Location) (i : Instant) : Int :=
  l.clock.offsetAt i

/-- The earliest instant after a given one at which the clock shows a reading. -/
def resolveAfter (l : Location) (r : Reading) (after : Instant) : Option Instant :=
  l.clock.resolveAfter r after

end Location
end Timetable
