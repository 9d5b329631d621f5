import Timetable.Expression.Parser
import Timetable.Proofs.Text.Spacing

/-!
# Time zones in the text

The name of a time zone before the rest of a text does what setting the parser's
location does.  The name ends at the first blank; what is behind the blanks is read
as a text of its own, whether it has fields or a descriptor and whether or not it
can be read.  A name that no zone has is a fault, and then the rest of the text is
not looked at.  Which zones there are does not matter.

Main results:

* a name led in is found, and the rest is trimmed (takeLocation_of_lead);
* reading with the name of a zone is reading with its location
  (prefix_as_location).
-/

namespace Timetable
namespace Parser

variable {p : Parser} {zones : Zones} {name rest : List Char} {c : Char}

/-- A text is cut behind what has no blank. -/
theorem splitAtBlank_of_solid (solid : Text.Solid name) (hc : Text.isBlank c = true) :
    splitAtBlank (name ++ c :: rest) = (name, rest) := by
  have inside : ∀ d ∈ name, (!Text.isBlank d) = true := by
    intro d hd
    rw [solid d hd]
    rfl
  have hname : (name ++ c :: rest).takeWhile (!Text.isBlank ·) = name := by
    rw [List.takeWhile_append_of_pos inside,
      List.takeWhile_cons_of_neg (p := (!Text.isBlank ·)) (by simp [hc]), List.append_nil]
  have hrest : (name ++ c :: rest).dropWhile (!Text.isBlank ·) = c :: rest := by
    rw [List.dropWhile_append_of_pos inside,
      List.dropWhile_cons_of_neg (p := (!Text.isBlank ·)) (by simp [hc])]
  rw [splitAtBlank, hname, hrest]
  rfl

/-- The name that is led in stands behind the equals sign of the lead. -/
theorem behindEquals_of_lead {lead : List Char} (hlead : lead ∈ zoneLeads) :
    behindEquals (lead ++ name) = name := by
  rcases List.mem_cons.1 hlead with rfl | hlead
  · rfl
  · cases List.mem_singleton.1 hlead
    rfl

/-- A name that is led in says what location the trimmed rest of the text is about. -/
theorem takeLocation_of_lead
    {lead : List Char}
    (hlead : lead ∈ zoneLeads)
    (solid : Text.Solid name)
    (hc : Text.isBlank c = true) :
    p.takeLocation zones (lead ++ (name ++ c :: rest)) =
      (findLocation zones (String.ofList name)).map (·, Text.trim rest) := by
  have hleads : zoneLeads.any (·.isPrefixOf (lead ++ (name ++ c :: rest))) = true :=
    List.any_eq_true.2 ⟨lead, hlead, List.isPrefixOf_iff_prefix.2 (List.prefix_append ..)⟩
  have solidLead : Text.Solid (lead ++ name) := by
    intro d hd
    rcases List.mem_append.1 hd with hd | hd
    · exact (by decide : ∀ lead ∈ zoneLeads, Text.Solid lead) lead hlead d hd
    · exact solid d hd
  rw [takeLocation, if_pos hleads, ← List.append_assoc, splitAtBlank_of_solid solidLead hc]
  show (findLocation zones (String.ofList (behindEquals (lead ++ name))) >>= _) = _
  rw [behindEquals_of_lead hlead]
  cases findLocation zones (String.ofList name) <;> rfl

/-- A text with the name of a zone led in is read as its trimmed rest at the zone's location,
or not read when no zone has the name. -/
theorem parseWith_of_lead
    {lead name gap : String}
    (leads : lead ∈ ["TZ=", "CRON_TZ="])
    (solid : Text.Solid name.toList)
    (blank : Text.Blanks gap.toList)
    (apart : gap ≠ "")
    (rest : String) :
    p.parseWith zones (lead ++ name ++ gap ++ rest) =
      match Location.ofName? zones name with
      | some l => readBody p.layout l (Text.trim (gap.toList.tail ++ rest.toList))
      | none => .error (.fault (.unknownTimezone name)) := by
  obtain ⟨c, more, hgap⟩ :=
    List.exists_cons_of_ne_nil fun h => apart (String.toList_eq_nil_iff.1 h)
  have hc : Text.isBlank c = true := blank c (hgap ▸ List.mem_cons_self)
  have hlead : lead.toList ∈ zoneLeads := List.mem_map_of_mem leads
  have htext : (lead ++ name ++ gap ++ rest).toList =
      lead.toList ++ (name.toList ++ c :: (more ++ rest.toList)) := by
    simp [hgap]
  have hsome : lead ++ name ++ gap ++ rest ≠ "" := by
    intro h
    simp [h] at htext
  rw [parseWith_of_ne hsome, htext, takeLocation_of_lead hlead solid hc, String.ofList_toList,
    findLocation, hgap]
  cases Location.ofName? zones name <;> rfl

/-- Reading a text with the name of a zone led in, before any blanks and with any behind it, is
reading it with the zone as the parser's location.  A name that no zone has is a fault of its
own, whatever follows. -/
theorem prefix_as_location
    (p : Parser)
    (zones : Zones)
    (lead name gap : String)
    (leads : lead ∈ ["TZ=", "CRON_TZ="])
    (solid : Text.Solid name.toList)
    (blank : Text.Blanks gap.toList)
    (apart : gap ≠ "") :
    (∀ l, Location.ofName? zones name = some l →
      ∀ body tail : String, body ≠ "" → Text.Trimmed body.toList →
        (∀ other ∈ zoneLeads, ¬ other <+: body.toList) → Text.Blanks tail.toList →
        p.parseWith zones (lead ++ name ++ gap ++ body ++ tail) =
          (p.withLocation l).parseWith zones body) ∧
    (Location.ofName? zones name = none → ∀ body : String,
      p.parseWith zones (lead ++ name ++ gap ++ body) = .error (.fault (.unknownTimezone name))) := by
  refine ⟨fun l hname body tail hbody trimmed noLead behind => ?_, fun hname body => ?_⟩
  · have hsome : body.toList ≠ [] := fun h => hbody (String.toList_eq_nil_iff.1 h)
    rw [String.append_assoc, parseWith_of_lead leads solid blank apart, hname,
      parseWith_of_no_lead hbody noLead, String.toList_append,
      Text.trim_of_trimmed blank.tail trimmed hsome behind]
    rfl
  · rw [parseWith_of_lead leads solid blank apart, hname]

/-- A zone before fields, the clock here before a descriptor that cannot be read, and a name that
no zone has. -/
theorem prefix_as_location_tokyo :
    standard.parse "TZ=Asia/Tokyo \t0 9 * * *\n" =
      (standard.withLocation (.zone Zone.tokyo)).parse "0 9 * * *" ∧
    standard.parse "CRON_TZ=LOCAL @every" =
      (standard.withLocation (.here Zone.utc)).parse "@every" ∧
    standard.parse "TZ=Nowhere/City * *" = .error (.fault (.unknownTimezone "Nowhere/City")) := by
  have tokyo := prefix_as_location standard Zones.listed "TZ=" "Asia/Tokyo" " \t"
    (by decide) (by decide) (by decide) (by decide)
  have here := prefix_as_location standard Zones.listed "CRON_TZ=" "LOCAL" " "
    (by decide) (by decide) (by decide) (by decide)
  have nowhere := prefix_as_location standard Zones.listed "TZ=" "Nowhere/City" " "
    (by decide) (by decide) (by decide) (by decide)
  refine ⟨?_, ?_, ?_⟩
  · exact tokyo.1 _ (by decide +kernel) "0 9 * * *" "\n" (by decide)
      (by decide) (by decide) (by decide)
  · exact here.1 _ (by decide +kernel) "@every" "" (by decide)
      (by decide) (by decide) (by decide)
  · exact nowhere.2 (by decide +kernel) "* *"

end Parser
end Timetable
