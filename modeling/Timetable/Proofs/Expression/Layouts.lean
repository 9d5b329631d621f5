import Timetable.Proofs.Field.Acceptance
import Timetable.Proofs.Text.Spacing

/-!
# Layouts with fields left out

A layout that leaves fields out is short for the layout of all six fields.  The
words of a text fill the fields that the layout has, in their order; each of the
others is filled in, a time field with a zero and a date field with a star.  There
is one way to do so when there are as many words as the layout has fields, and then
the text is read as any text of those six words is read with all fields in the
layout.  Otherwise the text is not read.

Main results:

* the texts at the positions of a layout are the only ones that complete its words
  (completes_fieldText, Completes.eq_fieldText);
* what is read of the fields depends on their six texts alone (readPattern_congr), so
  it is what is read of the completed ones (readPattern_of_completes);
* a text is read as its six words are, fault for fault (read_as_completed).
-/

namespace Timetable

/-- The texts of all fields complete those given in a layout. -/
structure Layout.Completes
    (l : Layout)
    (words : List (List Char))
    (textOf : Part → List Char) : Prop where
  given : (Part.fields.filter l.has).map textOf = words
  time : ∀ q ∈ [Part.second, Part.minute, Part.hour], l.has q = false → textOf q = ['0']
  date : ∀ q ∈ [Part.dayOfMonth, Part.month, Part.dayOfWeek],
    l.has q = false → textOf q = ['*']

/-- The layout has all six fields. -/
def Layout.Whole (l : Layout) : Prop :=
  ∀ q ∈ Part.fields, l.has q = true

/-- The time fields come first, then the date fields. -/
theorem Part.mem_fields_iff {q : Part} :
    q ∈ fields ↔ q ∈ [second, minute, hour] ∨ q ∈ [dayOfMonth, month, dayOfWeek] := by
  cases q <;> decide

instance (l : Layout) : Decidable l.Whole :=
  inferInstanceAs (Decidable (∀ q ∈ Part.fields, l.has q = true))

namespace Layout

variable {l : Layout} {words : List (List Char)} {textOf : Part → List Char} {q : Part}

/-- Counting the kept elements before each kept element counts through the list. -/
theorem map_getD_filter
    {α : Type}
    {keep : Part → Bool}
    {ps : List Part}
    {ts : List α}
    (standIn : Part → α)
    (once : ps.Nodup)
    (count : ts.length = (ps.filter keep).length) :
    (ps.filter keep).map
      (fun p => ts.getD ((ps.takeWhile (· ≠ p)).filter keep).length (standIn p)) = ts := by
  induction ps generalizing ts with
  | nil => exact (List.eq_nil_of_length_eq_zero count).symm
  | cons q ps ih =>
      obtain ⟨hq, once⟩ := List.nodup_cons.1 once
      have hother : ∀ p ∈ ps.filter keep,
          (q :: ps).takeWhile (· ≠ p) = q :: ps.takeWhile (· ≠ p) := by
        intro p hp
        have : q ≠ p := fun h => hq (h ▸ (List.mem_filter.1 hp).1)
        exact List.takeWhile_cons_of_pos (by simpa using this)
      cases hkeep : keep q with
      | false =>
          rw [List.filter_cons_of_neg (by simp [hkeep])] at count ⊢
          refine (List.map_congr_left fun p hp => ?_).trans (ih once count)
          rw [hother p hp, List.filter_cons_of_neg (by simp [hkeep])]
      | true =>
          rw [List.filter_cons_of_pos hkeep] at count ⊢
          obtain ⟨t, ts, rfl⟩ := List.exists_cons_of_length_eq_add_one count
          rw [List.map_cons, List.takeWhile_cons_of_neg (by simp)]
          refine congrArg (t :: ·) ?_
          refine (List.map_congr_left fun p hp => ?_).trans (ih once (Nat.succ.inj count))
          rw [hother p hp, List.filter_cons_of_pos hkeep]
          rfl

/-- The texts at the positions of the layout complete as many words as it has fields. -/
theorem completes_fieldText (count : words.length = l.fieldCount) :
    l.Completes words (l.fieldText words) where
  given := by
    refine (List.map_congr_left fun q hq => ?_).trans
      (map_getD_filter Part.standIn (by decide : Part.fields.Nodup) count)
    rw [fieldText, if_pos (List.mem_filter.1 hq).2]
    rfl
  time q hq lacks := by
    rw [fieldText_of_not_has words lacks]
    exact (by decide : ∀ q ∈ [Part.second, .minute, .hour], q.standIn = ['0']) q hq
  date q hq lacks := by
    rw [fieldText_of_not_has words lacks]
    exact (by decide : ∀ q ∈ [Part.dayOfMonth, .month, .dayOfWeek], q.standIn = ['*']) q hq

/-- There are as many words as the layout has fields when some texts complete them. -/
theorem Completes.length_eq (h : l.Completes words textOf) : words.length = l.fieldCount := by
  rw [← h.given, List.length_map]
  rfl

/-- No other texts complete the words than those at the positions of the layout. -/
theorem Completes.eq_fieldText
    (h : l.Completes words textOf)
    (hq : q ∈ Part.fields) :
    textOf q = l.fieldText words q := by
  have other := completes_fieldText h.length_eq
  cases has : l.has q with
  | true =>
      exact List.map_inj_left.1 (h.given.trans other.given.symm) q (List.mem_filter.2 ⟨hq, has⟩)
  | false =>
      rcases Part.mem_fields_iff.1 hq with hq | hq
      · rw [h.time q hq has, other.time q hq has]
      · rw [h.date q hq has, other.date q hq has]

/-- In a layout of all six fields nothing is filled in. -/
theorem Whole.completes (whole : l.Whole) (textOf : Part → List Char) :
    l.Completes (Part.fields.map textOf) textOf where
  given := by
    rw [List.filter_eq_self.2 whole]
  time q hq lacks := by
    have := whole q (Part.mem_fields_iff.2 (.inl hq))
    simp [lacks] at this
  date q hq lacks := by
    have := whole q (Part.mem_fields_iff.2 (.inr hq))
    simp [lacks] at this

end Layout

namespace Parser

/-- The first word is the beginning of fields: of no descriptor and of no time zone. -/
def Plain (words : List (List Char)) : Prop :=
  ∀ w ∈ words.head?, ∀ lead ∈ ["@".toList, "TZ=".toList, "CRON_TZ=".toList], ¬ lead <+: w

instance (words : List (List Char)) : Decidable (Plain words) :=
  inferInstanceAs (Decidable (∀ w ∈ words.head?,
    ∀ lead ∈ ["@".toList, "TZ=".toList, "CRON_TZ=".toList], ¬ lead <+: w))

variable {l l' : Layout} {loc : Location} {cs cs' : List Char} {words : List (List Char)}

/-- What is read of the fields depends on their six texts alone. -/
theorem readPattern_congr
    (count : (Text.words cs).length = l.fieldCount)
    (count' : (Text.words cs').length = l'.fieldCount)
    (agree : ∀ q ∈ Part.fields,
      l.fieldText (Text.words cs) q = l'.fieldText (Text.words cs') q) :
    readPattern l loc cs = readPattern l' loc cs' := by
  unfold readPattern
  rw [if_pos count, if_pos count', agree .second (by decide), agree .minute (by decide),
    agree .hour (by decide), agree .dayOfMonth (by decide), agree .month (by decide),
    agree .dayOfWeek (by decide)]

/-- Fields are not read when there are too few or too many words. -/
theorem readPattern_of_length_ne (count : (Text.words cs).length ≠ l.fieldCount) :
    readPattern l loc cs =
      .error (.fieldCount l.fieldCount ((Text.words cs).map String.ofList)) := by
  unfold readPattern
  rw [if_neg count]

/-- The spacing of the fields does not matter. -/
theorem readPattern_of_words (same : Text.words cs = Text.words cs') :
    readPattern l loc cs = readPattern l loc cs' := by
  rw [readPattern, readPattern, same]

/-- Fields are read as the six words that complete them are read in a layout of all fields. -/
theorem readPattern_of_completes
    {whole : Layout}
    {textOf : Part → List Char}
    (complete : l.Completes words textOf)
    (all : whole.Whole)
    (spaced : Text.Spaced words cs)
    (full : Text.Spaced (Part.fields.map textOf) cs') :
    readPattern l loc cs = readPattern whole loc cs' := by
  have completeWhole := all.completes textOf
  refine readPattern_congr (spaced.words_eq ▸ complete.length_eq)
    (full.words_eq ▸ completeWhole.length_eq) fun q hq => ?_
  rw [spaced.words_eq, full.words_eq, ← complete.eq_fieldText hq, ← completeWhole.eq_fieldText hq]

/-- A text that is made of plain words begins with none of the leads. -/
theorem not_prefix_of_plain
    {lead : List Char}
    (spaced : Text.Spaced words cs)
    (plain : Plain words)
    (hlead : lead ∈ ["@".toList, "TZ=".toList, "CRON_TZ=".toList]) :
    ¬ lead <+: cs := by
  intro begins
  have solid : ∀ lead ∈ ["@".toList, "TZ=".toList, "CRON_TZ=".toList],
      Text.Solid lead ∧ lead ≠ [] := by decide
  obtain ⟨w, hw, h⟩ := spaced.prefix_head begins (solid lead hlead).1 (solid lead hlead).2
  exact plain w hw lead hlead h

/-- A text that is made of plain words is read as its fields, at the parser's location. -/
theorem parseWith_of_plain
    {p : Parser}
    {zones : Zones}
    {text : String}
    (some : text ≠ "")
    (spaced : Text.Spaced words text.toList)
    (plain : Plain words) :
    p.parseWith zones text =
      match readPattern p.layout p.location text.toList with
      | .ok q => .ok (.pattern q)
      | .error f => .error (.fault f) := by
  have noLead : ∀ lead ∈ zoneLeads, ¬ lead <+: text.toList :=
    fun lead hlead => not_prefix_of_plain spaced plain (List.mem_cons_of_mem _ hlead)
  have hat : ¬ text.toList.head? = Option.some '@' := by
    intro h
    refine not_prefix_of_plain spaced plain List.mem_cons_self ?_
    obtain ⟨rest, hrest⟩ := List.head?_eq_some_iff.1 h
    exact ⟨rest, hrest.symm⟩
  rw [parseWith_of_no_lead some noLead]
  cases hread : readPattern p.layout p.location text.toList <;>
    rw [readBody, if_neg hat, hread]

/-- Texts that complete plain words are plain. -/
theorem plain_of_completes
    {textOf : Part → List Char}
    (complete : l.Completes words textOf)
    (plain : Plain words) :
    Plain (Part.fields.map textOf) := by
  rintro w ⟨⟩
  cases has : l.has .second with
  | true =>
      refine plain (textOf .second) ?_
      rw [← complete.given, Part.fields, List.filter_cons_of_pos has]
      rfl
  | false =>
      rw [complete.time .second List.mem_cons_self has]
      decide

/-- Texts that complete the words of a text have no blank and are not empty. -/
theorem solid_of_completes
    {textOf : Part → List Char}
    (complete : l.Completes words textOf)
    (spaced : Text.Spaced words cs) :
    ∀ w ∈ Part.fields.map textOf, Text.Solid w ∧ w ≠ [] := by
  intro w hw
  obtain ⟨q, hq, rfl⟩ := List.mem_map.1 hw
  rw [complete.eq_fieldText hq]
  rcases l.fieldText_mem words q with hmem | hstand
  · exact spaced.of_mem hmem
  · rw [hstand]
    exact (by decide : ∀ q ∈ Part.fields, Text.Solid q.standIn ∧ q.standIn ≠ []) q hq

/-- A text of plain words is read, in any layout, as any text of the six words that complete
them is read in a layout of all six fields, with the same masks or the same fault.  It is not
read when there are more or fewer words than the layout has fields.  The spacing of the text
does not matter. -/
theorem read_as_completed
    (p : Parser)
    (zones : Zones)
    (words : List (List Char))
    (text : String)
    (some : text ≠ "")
    (spaced : Text.Spaced words text.toList)
    (plain : Plain words) :
    (words.length ≠ p.layout.fieldCount →
      p.parseWith zones text =
        .error (.fault (.fieldCount p.layout.fieldCount (words.map String.ofList)))) ∧
    (words.length = p.layout.fieldCount → ∃ textOf, p.layout.Completes words textOf) ∧
    (∀ textOf, p.layout.Completes words textOf →
      (∃ full : String, Text.Spaced (Part.fields.map textOf) full.toList) ∧
      ∀ (whole : Layout) (full : String), whole.Whole →
        Text.Spaced (Part.fields.map textOf) full.toList →
        p.parseWith zones text = { p with layout := whole }.parseWith zones full) ∧
    ∀ other : String, other ≠ "" → Text.Spaced words other.toList →
      p.parseWith zones other = p.parseWith zones text := by
  have hwords := spaced.words_eq
  refine ⟨fun count => ?_, fun count => ⟨_, Layout.completes_fieldText count⟩,
    fun textOf complete => ⟨?_, fun whole full all hfull => ?_⟩, fun other hother hspaced => ?_⟩
  · rw [parseWith_of_plain some spaced plain, readPattern_of_length_ne (hwords ▸ count), hwords]
  · obtain ⟨cs, hcs, -⟩ := Text.exists_text (solid_of_completes complete spaced)
    exact ⟨String.ofList cs, by rwa [String.toList_ofList]⟩
  · have hsome : full ≠ "" := by
      rintro rfl
      exact absurd hfull.words_eq (by simp [Part.fields])
    rw [parseWith_of_plain some spaced plain,
      parseWith_of_plain hsome hfull (plain_of_completes complete plain),
      readPattern_of_completes complete all spaced hfull]
  · rw [parseWith_of_plain some spaced plain, parseWith_of_plain hother hspaced plain,
      readPattern_of_words (hspaced.words_eq.trans hwords.symm)]

/-- A parser of dates without times. -/
def dates : Parser :=
  ⟨.ofParts [.dayOfMonth, .month, .dayOfWeek], .utc, .listed⟩

/-- The texts of all fields for the fifteenth of every third month. -/
def quarterly : Part → List Char
  | .dayOfMonth => "15".toList
  | .month => "*/3".toList
  | .dayOfWeek => "*".toList
  | _ => "0".toList

/-- Three words that are dates are read like six with zeros before them, also with other blanks
around them, and two words are too few. -/
theorem read_as_completed_dates :
    dates.parse "15 */3 *" = { dates with layout := .withSeconds }.parse "0 0 0 15 */3 *" ∧
    dates.parse " 15\t*/3\u2003* " = dates.parse "15 */3 *" ∧
    dates.parse "15 */3" = .error (.fault (.fieldCount 3 ["15", "*/3"])) := by
  have three := read_as_completed dates Zones.listed ["15".toList, "*/3".toList, "*".toList]
    "15 */3 *" (by decide) (Text.words_eq_iff.1 (by decide)) (by decide)
  have two := read_as_completed dates Zones.listed ["15".toList, "*/3".toList]
    "15 */3" (by decide) (Text.words_eq_iff.1 (by decide)) (by decide)
  refine ⟨?_, ?_, two.1 (by decide)⟩
  · have complete : dates.layout.Completes ["15".toList, "*/3".toList, "*".toList] quarterly :=
      ⟨by decide, by decide, by decide⟩
    exact (three.2.2.1 quarterly complete).2 .withSeconds "0 0 0 15 */3 *"
      (by decide) (Text.words_eq_iff.1 (by decide))
  · exact three.2.2.2 _ (by decide) (Text.words_eq_iff.1 (by decide))

end Parser
end Timetable
