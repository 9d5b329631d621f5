import Timetable.Expression.Descriptor

/-!
# Reading expressions

A parser reads the text of an expression in a layout.  The text may begin with
the name of a time zone, which takes the place of the parser's location; then
follows a descriptor or the fields with blanks between them.  A parser knows the
zones that can be named; a text may be read with other ones as well.
-/

namespace Timetable

/-- How the text of an expression is read. -/
structure Parser where
  layout : Layout
  location : Location
  zones : Zones

namespace Parser

/-- A parser for a layout that knows some zones, reading the clock here. -/
def knowing (zones : Zones) (l : Layout) : Parser :=
  ⟨l, .here zones.here, zones⟩

/-- A parser for a layout that knows the listed zones, reading the clock here. -/
def ofLayout (l : Layout) : Parser :=
  knowing .listed l

/-- Five fields or a descriptor. -/
def standard : Parser :=
  ofLayout Layout.standard

/-- Six fields or a descriptor. -/
def withSeconds : Parser :=
  ofLayout Layout.withSeconds

instance : Inhabited Parser :=
  ⟨standard⟩

/-- The parser with another location. -/
def withLocation (p : Parser) (l : Location) : Parser :=
  { p with location := l }

/-- Words with which the name of a time zone may be led in. -/
def zoneLeads : List (List Char) :=
  ["TZ=".toList, "CRON_TZ=".toList]

/-- The text up to the first blank and the text behind that blank. -/
def splitAtBlank (text : List Char) : List Char × List Char :=
  (text.takeWhile (!Text.isBlank ·), (text.dropWhile (!Text.isBlank ·)).drop 1)

/-- The part of a text behind the first equals sign. -/
def behindEquals (text : List Char) : List Char :=
  (text.dropWhile (· ≠ '=')).drop 1

/-- The location of a name, with some zones. -/
def findLocation (zones : Zones) (name : String) : Except Fault Location :=
  match Location.ofName? zones name with
  | some l => .ok l
  | none => .error (.unknownTimezone name)

/-- The location of a name, with the listed zones. -/
def readLocation (name : String) : Except Fault Location :=
  findLocation .listed name

/-- The location that a text is about, and the rest of the text. -/
def takeLocation (p : Parser) (zones : Zones) (text : List Char) :
    Except Fault (Location × List Char) :=
  if zoneLeads.any (·.isPrefixOf text) then do
    let (lead, rest) := splitAtBlank text
    let l ← findLocation zones (String.ofList (behindEquals lead))
    .ok (l, Text.trim rest)
  else .ok (p.location, text)

/-- The mask of a field of the text. -/
def readField (part : Part) (text : List Char) : Except Fault Mask :=
  match Field.compile part.bounds text with
  | .ok m => .ok m
  | .error f => .error (.field f)

/-- Read the fields of a text in a layout. -/
def readPattern (layout : Layout) (l : Location) (text : List Char) : Except Fault Pattern :=
  let fields := Text.words text
  let textOf := layout.fieldText fields
  if fields.length = layout.fieldCount then do
    let second ← readField .second (textOf .second)
    let minute ← readField .minute (textOf .minute)
    let hour ← readField .hour (textOf .hour)
    let dayOfMonth ← readField .dayOfMonth (textOf .dayOfMonth)
    let month ← readField .month (textOf .month)
    let dayOfWeek ← readField .dayOfWeek (textOf .dayOfWeek)
    .ok ⟨second, minute, hour, dayOfMonth, month, dayOfWeek, l⟩
  else .error (.fieldCount layout.fieldCount (fields.map String.ofList))

/-- Read a descriptor or the fields of a text. -/
def readBody (layout : Layout) (l : Location) (text : List Char) : Except Refusal Expression :=
  if text.head? = some '@' then
    if layout.descriptor then Expression.readDescriptor l text
    else .error (.fault (.descriptorsDisabled (String.ofList text)))
  else
    match readPattern layout l text with
    | .ok p => .ok (.pattern p)
    | .error f => .error (.fault f)

/-- Read the text of an expression, with some zones. -/
def parseWith (p : Parser) (zones : Zones) (text : String) :
    Except Refusal Expression :=
  match text.toList with
  | [] => .error (.fault .emptySpec)
  | cs =>
      match p.takeLocation zones cs with
      | .error f => .error (.fault f)
      | .ok (l, body) => readBody p.layout l body

/-- Read the text of an expression, with the zones that the parser knows. -/
def parse (p : Parser) (text : String) : Except Refusal Expression :=
  p.parseWith p.zones text

variable {p : Parser} {zones : Zones}

/-- A text without a lead is about the parser's location. -/
theorem takeLocation_of_no_lead
    {cs : List Char}
    (noLead : ∀ lead ∈ zoneLeads, ¬ lead <+: cs) :
    p.takeLocation zones cs = .ok (p.location, cs) := by
  have : ¬ zoneLeads.any (·.isPrefixOf cs) = true := by
    intro h
    obtain ⟨lead, hlead, h⟩ := List.any_eq_true.1 h
    exact noLead lead hlead (List.isPrefixOf_iff_prefix.1 h)
  rw [takeLocation, if_neg this]

/-- A text that is not empty is read behind its location. -/
theorem parseWith_of_ne
    {text : String}
    (some : text ≠ "") :
    p.parseWith zones text =
      match p.takeLocation zones text.toList with
      | .error f => .error (.fault f)
      | .ok (l, body) => readBody p.layout l body := by
  unfold parseWith
  split
  · rename_i hnil
    exact absurd (String.toList_eq_nil_iff.1 hnil) some
  · rfl

/-- A text without a lead is read as a whole, at the parser's location. -/
theorem parseWith_of_no_lead
    {text : String}
    (some : text ≠ "")
    (noLead : ∀ lead ∈ zoneLeads, ¬ lead <+: text.toList) :
    p.parseWith zones text = readBody p.layout p.location text.toList := by
  rw [parseWith_of_ne some, takeLocation_of_no_lead noLead]

end Parser
end Timetable
