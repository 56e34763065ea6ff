import SiteVisit.Proofs.Store.Readback
import SiteVisit.Proofs.Text.Slug
import SiteVisit.Proofs.Visit.Usable

namespace SiteVisit

open Calendar (Timezones)
open Text (latinName)

theorem id_of_individual {v r : Datum} (h : (Spec.nested meetingFields).eval v = .ok r) :
    ∀ i ∈ (Meeting.ofRecord r).individuals, i.id = Text.slug i.name := by
  have hx := (Spec.maps_of_eval h nodup_meetingFields).base "individuals"
    (.cellThen "Individuals" Transform.people) (by simp [meetingFields]) rfl (by decide)
  rw [Spec.eval_cellThen, bind_eq_ok] at hx
  obtain ⟨cell, -, hpeople⟩ := hx
  simp only [Transform.people, Except.ok.injEq] at hpeople
  intro i hi
  rw [Meeting.ofRecord, Datum.peopleAt, ← hpeople] at hi
  obtain ⟨name, -, rfl⟩ := List.mem_map.mp hi
  rfl

namespace Visit

variable {v : Visit} {m : Meeting} {p : Participant}

theorem Drafted.id_eq_slug_individual {o : LoadOptions} {schedule roster rooms : Sheet}
    (h : Drafted o schedule roster rooms v) :
    ∀ m ∈ v.meetings, ∀ i ∈ m.individuals, i.id = Text.slug i.name := by
  intro m hm
  obtain ⟨row, -, -, r, heval, rfl⟩ := h.exists_row hm
  exact id_of_individual heval

structure Slugged (v : Visit) : Prop where
  people : ∀ p ∈ v.participants, p.id = Text.slug p.fullName
  individuals : ∀ m ∈ v.meetings, ∀ i ∈ m.individuals, i.id = Text.slug i.name

def Names (m : Meeting) (p : Participant) : Prop :=
  ∃ i ∈ m.individuals, latinName i.name = latinName p.fullName

namespace Slugged

theorem latinName_eq (h : v.Slugged) (hm : m ∈ v.meetings) {i : Individual}
    (hi : i ∈ m.individuals) (hp : v.participant? i.id = some p) :
    latinName p.fullName = latinName i.name := by
  apply Text.latinName_eq_of_slug_eq
  rw [← h.people p (mem_of_participant? hp), ← h.individuals m hm i hi, id_of_participant? hp]

theorem names_of_listed (h : v.Slugged) (hm : m ∈ v.meetings) (hp : p ∈ v.listed m) :
    Names m p := by
  obtain ⟨i, hi, hfound⟩ := List.mem_filterMap.mp hp
  exact ⟨i, hi, (h.latinName_eq hm hi hfound).symm⟩

theorem attends_or_names (h : v.Slugged) (hids : (v.participants.map (·.id)).Nodup)
    (hm : m ∈ v.meetings) (hp : p ∈ v.guests m) : Attends m p ∨ Names m p := by
  obtain ⟨hroster, hlists | hattends⟩ := (mem_guests_iff hids).mp hp
  · obtain ⟨i, hi, hid⟩ := List.mem_map.mp hlists
    refine .inr ⟨i, hi, (h.latinName_eq hm hi ?_).symm⟩
    rw [hid, participant?_of_mem hids hroster]
  · exact .inl hattends

end Slugged

/-- In whatever has been loaded, an individual and the person found for it have the same letters and
digits of ASCII. So the representatives of a meeting are all named on it, and its attendees and the
people that a store shows at it are named on it or called for by a role. -/
theorem loaded_namesakes {w : Workbook} {o : LoadOptions} {messages after : List Message}
    (h : (load w o).outcome messages = (.ok v, after)) :
    (∀ m ∈ v.meetings, ∀ i ∈ m.individuals, ∀ p, v.participant? i.id = some p →
      latinName p.fullName = latinName i.name) ∧
    (∀ m ∈ v.meetings, ∀ before, ∃ found reported,
      (v.representatives m).outcome before = (.ok found, reported) ∧ ∀ p ∈ found, Names m p) ∧
    (∀ m ∈ v.meetings, ∀ before, ∃ found reported,
      (v.attendees m).outcome before = (.ok found, reported) ∧
        ∀ p ∈ found, Attends m p ∨ Names m p) ∧
    ∀ (zones : Timezones) (zone path : String) (earlier s stored : Store)
      (before reported : List Message),
      Store.populateOver earlier path v zone before zones = (.ok s, reported, stored) →
      ∀ (i : Nat) (m : Meeting), v.meetings[i]? = some m → Store.isRowNumber (i + 1) = true →
        ∃ d, s.detail? (i + 1) = .ok (some d) ∧
          ∀ row ∈ d.teamMembers ++ d.representatives, ∃ p ∈ v.participants,
            row.name = p.fullName ∧ (Attends m p ∨ Names m p) := by
  obtain ⟨_, _, _, -, -, -, hdrafted, hsound⟩ := sheets_of_read (load_eq_ok h)
  have hids := hsound.ids
  have hslugged : v.Slugged := ⟨hdrafted.id_eq_slug, hdrafted.id_eq_slug_individual⟩
  refine ⟨fun m hm i hi p => hslugged.latinName_eq hm hi, fun m hm before => ?_,
    fun m hm before => ?_, ?_⟩
  · exact ⟨_, _, v.enlisted_outcome m.individuals before, fun p => hslugged.names_of_listed hm⟩
  · exact ⟨_, _, attendees_outcome hids m before, fun p => hslugged.attends_or_names hids hm⟩
  · intro zones zone path earlier s stored before reported hstored i m hm hid
    obtain ⟨hholds, -, -⟩ := Store.populateOver_ok hids hstored
    obtain ⟨row, -, hnumber, -, hdetail⟩ := hholds.exists_detail hm hid
    refine ⟨s.detailOf row, hdetail, fun person hperson => ?_⟩
    have hguest : ∃ p ∈ v.guests m, Store.personRow p (Store.personId v p) = person := by
      rw [hholds.teamMembers hm hnumber, hholds.representatives hm hnumber, List.mem_append,
        List.mem_map, List.mem_map] at hperson
      rcases hperson with ⟨p, hp, heq⟩ | ⟨p, hp, heq⟩
      · exact ⟨p, List.mem_of_mem_filter hp, heq⟩
      · exact ⟨p, List.mem_of_mem_filter hp, heq⟩
    obtain ⟨p, hp, rfl⟩ := hguest
    exact ⟨p, mem_guests hp, rfl, hslugged.attends_or_names hids (List.mem_of_getElem? hm) hp⟩

/-- A schedule that lists somebody with an accent, whom the roster does not have, and somebody in
other letters, spaces and marks. -/
def accentBook : Workbook := [
  { name := "Proposed Meetings-MSCHE Team"
    rows := [
      ["Date", "Time", "Meeting Location", "Zoom Room Option", "Zoom Link",
        "Interview Assignments", "Team Chair", "SI", "SII", "SIII", "SIV", "SV", "SVI", "SVII",
        "Individuals", "Hide Names"].map .text,
      ["Monday", "9:00-10:00 a.m.", "", "", "", "Tour", "", "", "", "", "", "", "", "",
        "Zo\u00eb, DR.  BO ek", ""].map .text] },
  { name := "Participant List"
    rows := [
      ["PFX", "First Name", "Last Name", "Title /Involvement", "Staff", "Faculty", "Email",
        "Team Member"].map .text,
      ["", "Zo", "", "", "", "", "", ""].map .text,
      ["Dr", "Bo", "Ek", "", "", "", "", ""].map .text] },
  { name := "Zoom Rooms", rows := [["Zoom Room Name", "Link"].map .text] }]

def accentRead : Visit where
  meetings := [
    { name := "Tour", date := "Monday", time := "9:00-10:00 a.m."
      start := (Calendar.TimeOfDay.ofClock 9 0).toOption
      finish := (Calendar.TimeOfDay.ofClock 10 0).toOption, location := "", zoomRoom := ""
      individuals := [⟨"Zo\u00eb", "zo"⟩, ⟨"DR.  BO ek", "dr-bo-ek"⟩] }]
  participants := [{ firstName := "Zo", lastName := "", fullName := "Zo", id := "zo" },
    { honorific := "Dr", firstName := "Bo", lastName := "Ek", fullName := "Dr Bo Ek"
      id := "dr-bo-ek" }]

theorem load_accentBook : ∃ after, (load accentBook {}).outcome [] = (.ok accentRead, after) :=
  exists_outcome_of_toOption (by decide)

theorem loaded_namesakes_accentBook : ∃ p, accentRead.participant? "dr-bo-ek" = some p ∧
    latinName p.fullName = latinName "DR.  BO ek" ∧ latinName "DR.  BO ek" = "drboek".toList := by
  obtain ⟨after, hload⟩ := load_accentBook
  obtain ⟨hfound, -⟩ := loaded_namesakes hload
  exact ⟨_, rfl, hfound _ (.head _) ⟨"DR.  BO ek", "dr-bo-ek"⟩ (.tail _ (.head _)) _ rfl,
    by decide⟩

/-- Whichever characters count as letters, as long as a letter with an accent does: somebody is found
whose name has other letters than the one that is listed. -/
theorem accent_found_without : ∃ after v, (load accentBook {}).outcome [] = (.ok v, after) ∧
    ∃ m ∈ v.meetings, ∃ i ∈ m.individuals, ∃ p, v.participant? i.id = some p ∧
      ∀ isLetter : Char → Bool, isLetter '\u00eb' = true →
        (p.fullName.toList.filter isLetter).map Text.foldCase ≠
          (i.name.toList.filter isLetter).map Text.foldCase := by
  obtain ⟨after, hload⟩ := load_accentBook
  refine ⟨after, accentRead, hload, _, .head _, ⟨"Zo\u00eb", "zo"⟩, .head _, _, rfl, ?_⟩
  intro isLetter haccent heq
  have hlisted : '\u00eb' ∈ ("Zo\u00eb".toList.filter isLetter).map Text.foldCase :=
    List.mem_map.mpr ⟨'\u00eb', List.mem_filter.mpr ⟨by decide, haccent⟩, by decide⟩
  rw [← heq] at hlisted
  obtain ⟨c, hc, hfold⟩ := List.mem_map.mp hlisted
  have hnone : "Zo".toList.all fun c => Text.foldCase c != '\u00eb' := by decide
  exact bne_iff_ne.mp (List.all_eq_true.mp hnone c (List.mem_of_mem_filter hc)) hfold

end Visit
end SiteVisit
