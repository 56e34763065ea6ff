import SiteVisit.Proofs.Text.Spaced
import SiteVisit.Proofs.Visit.Namesakes

namespace SiteVisit

open Text (SpacedOut collapse onlySpaces splitAt trimChars words)

theorem fullName_eq_collapse {v r : Datum} {fromColumn : Bool}
    (h : (Spec.nested (participantFields fromColumn)).eval v = .ok r) :
    ∃ joined, (Participant.ofRecord r).fullName = collapse joined := by
  have hr := Spec.maps_of_eval h (nodup_participantFields fromColumn)
  obtain ⟨known, hname, -⟩ := hr.derived "full_name" Derivation.fullName
    (by simp [participantFields])
  simp only [Derivation.fullName, bind_eq_ok, pure_eq_ok, Except.ok.injEq] at hname
  obtain ⟨joined, -, hname⟩ := hname
  refine ⟨joined.shown, ?_⟩
  simp only [Participant.ofRecord, Datum.textAt, ← hname, Datum.text?, Option.getD_some, collapse]

namespace Visit

variable {v : Visit}

theorem Drafted.exists_fullName {o : LoadOptions} {schedule roster rooms : Sheet}
    (h : Drafted o schedule roster rooms v) :
    ∀ p ∈ v.participants, ∃ joined, p.fullName = collapse joined := by
  obtain ⟨records, hrecords, hroles⟩ := h.participants
  obtain ⟨labels, hafter⟩ := hroles.eq_map_gain
  intro p hp
  rw [hafter, List.map_map] at hp
  obtain ⟨r, hr, rfl⟩ := List.mem_map.mp hp
  obtain ⟨row, -, hrow⟩ := exists_row_of_mapRows hrecords hr
  exact fullName_eq_collapse hrow

theorem Drafted.spacedOut_fullName {o : LoadOptions} {schedule roster rooms : Sheet}
    (h : Drafted o schedule roster rooms v) :
    ∀ p ∈ v.participants, SpacedOut p.fullName.toList := by
  intro p hp
  obtain ⟨joined, hjoined⟩ := h.exists_fullName p hp
  rw [hjoined]
  exact Text.spacedOut_collapse joined

theorem exists_individual {cell : String} {piece : List Char} (h : piece ∈ splitAt ',' cell.toList)
    (hwords : words piece ≠ []) :
    Individual.ofName (String.ofList (trimChars piece)) ∈
      (Text.commaList cell).map Individual.ofName := by
  have hne : trimChars piece ≠ [] := by
    intro hnil
    rw [← Text.words_trimChars, hnil] at hwords
    exact hwords rfl
  refine List.mem_map_of_mem (List.mem_map_of_mem (List.mem_filter.mpr ⟨List.mem_map_of_mem h, ?_⟩))
  simpa using hne

/-- A slug tells a text from the one with a space for each run of blanks, unless there is a space
between any two words that it keeps anything of. It does not tell it from the one without any blank
that is no space, or from one in other case. So in whatever has been loaded, an individual with the
words of a name, in a meeting or in any cell of individuals, is found exactly if there is a space
between any two of them that the slug keeps anything of. -/
theorem loaded_spellings (s : String) :
    (Text.slug (collapse s) = Text.slug s ↔ SpacedOut s.toList) ∧
    Text.slug (String.ofList (onlySpaces s.toList)) = Text.slug s ∧
    (∀ t : String, t.toList.map Text.asciiLower = s.toList.map Text.asciiLower →
      Text.slug t = Text.slug s) ∧
    ∀ {w : Workbook} {o : LoadOptions} {messages after : List Message} {v : Visit},
      (load w o).outcome messages = (.ok v, after) → ∀ p ∈ v.participants,
        words s.toList = words p.fullName.toList →
        (∀ m ∈ v.meetings, ∀ i ∈ m.individuals, i.name = s →
          (v.participant? i.id = some p ↔ SpacedOut s.toList)) ∧
        ∀ cell : String, s.toList ∈ splitAt ',' cell.toList → words s.toList ≠ [] →
          ∃ i ∈ (Text.commaList cell).map Individual.ofName,
            i.name = Text.trim s ∧ (v.participant? i.id = some p ↔ SpacedOut s.toList) := by
  refine ⟨Text.slug_collapse s, Text.slug_onlySpaces s, fun t => Text.slug_eq_of_asciiLower, ?_⟩
  intro w o messages after v h p hp hwords
  obtain ⟨_, _, _, -, -, -, hdrafted, hsound⟩ := sheets_of_read (load_eq_ok h)
  have hfound : v.participant? (Text.slug s) = some p ↔ SpacedOut s.toList := by
    rw [← Text.slug_eq_iff_spacedOut (hdrafted.spacedOut_fullName p hp) hwords,
      ← hdrafted.id_eq_slug p hp]
    constructor
    · exact fun hs => (id_of_participant? hs).symm
    · exact fun hid => hid ▸ participant?_of_mem hsound.ids hp
  constructor
  · rintro m hm i hi rfl
    rw [hdrafted.id_eq_slug_individual m hm i hi]
    exact hfound
  · intro cell hpiece hne
    refine ⟨_, exists_individual hpiece hne, rfl, ?_⟩
    rw [Individual.ofName, ← Text.trim, Text.slug_trim]
    exact hfound

def spacedBook : Workbook := [
  { name := "Proposed Meetings-MSCHE Team"
    rows := [
      ["Date", "Time", "Meeting Location", "Zoom Room Option", "Zoom Link",
        "Interview Assignments", "Team Chair", "SI", "SII", "SIII", "SIV", "SV", "SVI", "SVII",
        "Individuals", "Hide Names"].map .text,
      ["Monday", "9:00-10:00 a.m.", "", "", "", "Tour", "", "", "", "", "", "", "", "",
        "Bo\t Ek, Bo\u00a0Ek", ""].map .text] },
  { name := "Participant List"
    rows := [
      ["PFX", "First Name", "Last Name", "Title /Involvement", "Staff", "Faculty", "Email",
        "Team Member"].map .text,
      ["", "Bo", "Ek", "", "", "", "", ""].map .text] },
  { name := "Zoom Rooms", rows := [["Zoom Room Name", "Link"].map .text] }]

def spacedRead : Visit where
  meetings := [
    { name := "Tour", date := "Monday", time := "9:00-10:00 a.m."
      start := (Calendar.TimeOfDay.ofClock 9 0).toOption
      finish := (Calendar.TimeOfDay.ofClock 10 0).toOption, location := "", zoomRoom := ""
      individuals := [⟨"Bo\t Ek", "bo-ek"⟩, ⟨"Bo\u00a0Ek", "boek"⟩] }]
  participants := [{ firstName := "Bo", lastName := "Ek", fullName := "Bo Ek", id := "bo-ek" }]

theorem load_spacedBook : ∃ after, (load spacedBook {}).outcome [] = (.ok spacedRead, after) :=
  exists_outcome_of_toOption (by decide)

theorem loaded_spellings_spacedBook : ∃ p ∈ spacedRead.participants,
    spacedRead.participant? "bo-ek" = some p ∧
    Text.slug (collapse "Bo\t Ek") = Text.slug "Bo\t Ek" ∧
    Text.slug "BO\t ek" = Text.slug "Bo\t Ek" ∧
    ∃ i ∈ (Text.commaList "Al,Bo\t Ek").map Individual.ofName,
      i.name = "Bo\t Ek" ∧ spacedRead.participant? i.id = some p := by
  obtain ⟨after, hload⟩ := load_spacedBook
  obtain ⟨hcollapse, -, hcase, hpeople⟩ := loaded_spellings "Bo\t Ek"
  have hspaced : SpacedOut "Bo\t Ek".toList := by decide
  obtain ⟨hlisted, hcell⟩ := hpeople hload _ (.head _) (by decide)
  obtain ⟨i, hi, hname, hfound⟩ := hcell "Al,Bo\t Ek" (by decide) (by decide)
  refine ⟨_, .head _, ?_, hcollapse.mpr hspaced, hcase _ (by decide), i, hi, ?_,
    hfound.mpr hspaced⟩
  · exact (hlisted _ (.head _) ⟨"Bo\t Ek", "bo-ek"⟩ (.head _) rfl).mpr hspaced
  · exact hname.trans (by decide)

/-- A space that does not break is left out, and the words on both sides of it become one; so nobody
is found under the words of the name. -/
theorem unbreaking_not_found :
    Text.slug "Jane\u00a0Doe" ≠ Text.slug (collapse "Jane\u00a0Doe") ∧
    ∃ after v, (load spacedBook {}).outcome [] = (.ok v, after) ∧
      ∃ p ∈ v.participants, ',' ∉ p.fullName.toList ∧
        ∃ m ∈ v.meetings, ∃ i ∈ m.individuals,
          collapse i.name = p.fullName ∧ v.participant? i.id = none := by
  obtain ⟨after, hload⟩ := load_spacedBook
  refine ⟨by decide, after, spacedRead, hload, _, .head _, by decide, _, .head _,
    ⟨"Bo\u00a0Ek", "boek"⟩, .tail _ (.head _), by decide, by decide⟩

end Visit
end SiteVisit
