import SiteVisit.Command.Populate
import SiteVisit.Proofs.Documents.Rendering
import SiteVisit.Proofs.Store.Populate
import SiteVisit.Proofs.Visit.Integrity
import SiteVisit.Proofs.Workbook.Lines

namespace SiteVisit

open Calendar (Date Offsets TimeOfDay Timezones)
open Documents (Kind Showable)
open Markup.Xml (IsLegal)
open Text (OnlyOf IsPlain)

def Workbook.TextsOf (Q : Char → Prop) (w : Workbook) : Prop :=
  ∀ s ∈ w, ∀ row ∈ s.rows, ∀ cell ∈ row, OnlyOf Q cell.shown

theorem Workbook.TextsOf.records {Q : Char → Prop} {w : Workbook} (h : w.TextsOf Q)
    (hplain : ∀ c, IsPlain c → Q c) {name : String} {s : Sheet} (hs : w.sheet name = .ok s)
    (header : Int) : ∀ row ∈ s.records header, row.value.IsRow (OnlyOf Q) := by
  have hmem : s ∈ w := by
    rw [Workbook.sheet] at hs
    split at hs
    · next found hfound =>
      cases hs
      exact List.mem_of_find?_eq_some hfound
    · cases hs
  exact s.records_isRow .empty (s.lines_onlyOf hplain (h s hmem)) header

theorem Participant.TextsOf.gain {Q : Char → Prop} {p : Participant} (h : p.TextsOf Q)
    (labels : List String) : (p.gain labels).TextsOf Q := ⟨h.fullName, h.title⟩

namespace Visit

variable {Q : Char → Prop} {o : LoadOptions} {schedule roster rooms : Sheet} {v : Visit}

namespace Drafted

theorem texts_participants (h : Drafted o schedule roster rooms v) (hspace : Q ' ')
    (hrows : ∀ row ∈ roster.records 0, row.value.IsRow (OnlyOf Q)) :
    ∀ p ∈ v.participants, p.TextsOf Q := by
  obtain ⟨records, hrecords, hroles⟩ := h.participants
  obtain ⟨labels, hafter⟩ := hroles.eq_map_gain
  intro p hp
  rw [hafter, List.map_map] at hp
  obtain ⟨r, hr, rfl⟩ := List.mem_map.mp hp
  obtain ⟨row, hmem, heval⟩ := exists_row_of_mapRows hrecords hr
  exact (texts_of_participant hspace (hrows row hmem) heval).gain _

theorem texts_meetings (h : Drafted o schedule roster rooms v)
    (hrows : ∀ row ∈ schedule.records o.meetingsHeader, row.value.IsRow (OnlyOf Q)) :
    ∀ m ∈ v.meetings, m.TextsOf Q := by
  intro m hm
  obtain ⟨row, hmem, -, r, heval, rfl⟩ := h.exists_row hm
  exact texts_of_meeting (hrows row hmem) heval

theorem texts_zoomRooms (h : Drafted o schedule roster rooms v)
    (hrows : ∀ row ∈ rooms.records 0, row.value.IsRow (OnlyOf Q)) :
    ∀ z ∈ v.zoomRooms, z.TextsOf Q := by
  obtain ⟨records, hrecords, hzoomRooms⟩ := h.zoomRooms
  intro z hz
  rw [hzoomRooms] at hz
  obtain ⟨r, hr, rfl⟩ := List.mem_map.mp hz
  obtain ⟨row, hmem, heval⟩ := exists_row_of_mapRows hrecords hr
  exact texts_of_zoomRoom (hrows row hmem) heval

end Drafted

theorem showable_of_read {w : Workbook} (h : read w o = .ok v) (hw : w.TextsOf IsLegal) :
    Showable v := by
  obtain ⟨schedule, roster, rooms, hschedule, hroster, hrooms, hdrafted, hsound⟩ := sheets_of_read h
  have hplain (c : Char) : IsPlain c → IsLegal c := Documents.isLegal_of_plain
  refine ⟨hdrafted.texts_participants (by decide) (hw.records hplain hroster 0),
    hdrafted.texts_meetings (hw.records hplain hschedule _),
    hdrafted.texts_zoomRooms (hw.records hplain hrooms 0), fun m hm hshows => ?_⟩
  obtain ⟨z, hz, hname⟩ := hsound.known m hm (.inl hshows)
  exact ⟨z, (room?_eq_some hsound.rooms _ _).mpr ⟨hz, hname⟩⟩

theorem IsSound.storable (h : v.IsSound) {zones : Timezones} {zone : String} {z : Offsets}
    (hzone : zones zone = some z) {m : Meeting} (hm : m ∈ v.meetings)
    (hfirst : m.day ≠ some .first) (hlast : m.day ≠ some .last) :
    Store.Storable zones zone (Store.roomNumbers v) m where
  room := by
    rw [Store.roomNumber]
    split
    · exact ⟨none, rfl⟩
    · next hnamed =>
      obtain ⟨room, hroom, hname⟩ :=
        h.known m hm (.inr fun hempty => hnamed (String.isEmpty_iff.mpr hempty))
      rw [← hname, Store.roomNumbers, Store.lookup_numbers h.rooms 1 hroom]
      exact ⟨_, rfl⟩
  start := Stamp.exists_ofLocal hzone hfirst hlast m.start
  finish := Stamp.exists_ofLocal hzone hfirst hlast m.finish

theorem load_eq_ok {w : Workbook} {messages after : List Message}
    (h : (load w o).outcome messages = (.ok v, after)) : read w o = .ok v := by
  rw [load, Reporting.outcome_bind, Reporting.outcome_ofExcept] at h
  cases hread : read w o with
  | ok found =>
    rw [hread] at h
    cases h
    rfl
  | error e =>
    rw [hread] at h
    cases h

/-- Whatever has been loaded can be used: documents of all kinds can be made of it if its texts and
the settings have no characters but those of documents, and it can be stored over any store, in any
zone, if no meeting is on the first or on the last day of the calendar. -/
theorem loaded_usable {w : Workbook} {messages after : List Message}
    (hload : (load w o).outcome messages = (.ok v, after)) :
    (∀ settings : DocumentSettings, w.TextsOf IsLegal → settings.TextsOf IsLegal →
      ∀ kind : Kind, ∀ before, ∃ document reported,
        (kind.generate v settings).outcome before = (.ok document, reported)) ∧
    (∀ (zones : Timezones) (zone : String) (z : Offsets), zones zone = some z →
      (∀ m ∈ v.meetings, m.day ≠ some .first ∧ m.day ≠ some .last) →
      ∀ (earlier : Store) (path : String) (before : List Message), ∃ s reported,
        Store.populateOver earlier path v zone before zones = (.ok s, reported, s)) := by
  have hread := load_eq_ok hload
  obtain ⟨_, _, _, -, -, -, -, hsound⟩ := sheets_of_read hread
  constructor
  · intro settings hw hsettings kind before
    obtain ⟨document, reported, houtcome, -⟩ :=
      Documents.generate_succeeds (showable_of_read hread hw) hsettings kind before
    exact ⟨document, reported, houtcome⟩
  · intro zones zone z hzone hdays earlier path before
    obtain ⟨counts, s, hwrite⟩ := Store.write_succeeds path hsound.ids hsound.rooms
      fun m hm => hsound.storable hzone hm (hdays m hm).1 (hdays m hm).2
    exact ⟨s.saved, s.messages, by rw [Store.populateOver, hwrite]; rfl⟩

def tourBook : Workbook := [
  { name := "Proposed Meetings-MSCHE Team"
    rows := [
      ["Date", "Time", "Meeting Location", "Zoom Room Option", "Zoom Link",
        "Interview Assignments", "Team Chair", "SI", "SII", "SIII", "SIV", "SV", "SVI", "SVII",
        "Individuals", "Hide Names"].map .text,
      ["Monday, June 2, 2025", "9:00-10:00 a.m.", "Hall", "Primary Room", "Red", "Opening", "x",
        "", "", "", "", "", "", "", "Bo Ek", ""].map .text] },
  { name := "Participant List"
    rows := [
      ["PFX", "First Name", "Last Name", "Title /Involvement", "Staff", "Faculty", "Email",
        "Team Member"].map .text,
      ["", "Ann", "Lee", "Chair", "", "", "", "Team Chair"].map .text,
      ["", "Bo", "Ek", "Dean", "x", "", "", ""].map .text] },
  { name := "Zoom Rooms"
    rows := [["Zoom Room Name", "Link"].map .text, ["Red", "https://zoom.us/j/1"].map .text] }]

def tourRead : Visit where
  meetings := [{
    name := "Opening", date := "Monday, June 2, 2025", day := Date.ofParts? 2025 6 2
    time := "9:00-10:00 a.m.", start := (TimeOfDay.ofClock 9 0).toOption
    finish := (TimeOfDay.ofClock 10 0).toOption, location := "Hall", zoomOption := .primary
    zoomRoom := "Red", roles := [.chair], individuals := [⟨"Bo Ek", "bo-ek"⟩] }]
  participants := [
    { title := "Chair", firstName := "Ann", lastName := "Lee", fullName := "Ann Lee"
      id := "ann-lee", roles := ["Team Chair"] },
    { title := "Dean", firstName := "Bo", lastName := "Ek", staff := true, fullName := "Bo Ek"
      id := "bo-ek" }]
  zoomRooms := [⟨"Red", "https://zoom.us/j/1"⟩]

theorem load_tourBook : ∃ after, (load tourBook {}).outcome [] = (.ok tourRead, after) :=
  exists_outcome_of_toOption (by decide)

theorem tour_usable :
    (∀ kind : Kind, ∃ document reported,
      (kind.generate tourRead {}).outcome [] = (.ok document, reported)) ∧
    ∃ s reported, Store.populateOver {} "visit.db" tourRead "America/New_York" [] =
      (.ok s, reported, s) := by
  have hbook : tourBook.TextsOf IsLegal := by
    unfold Workbook.TextsOf
    decide
  have hsettings : DocumentSettings.TextsOf IsLegal {} :=
    ⟨by decide, by decide, by decide, by decide, by decide⟩
  obtain ⟨after, hload⟩ := load_tourBook
  obtain ⟨hshown, hstored⟩ := loaded_usable hload
  exact ⟨fun kind => hshown {} hbook hsettings kind [],
    hstored .known "America/New_York" _ rfl (by decide) {} "visit.db" []⟩

end Visit
end SiteVisit
