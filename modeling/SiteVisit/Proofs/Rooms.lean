import SiteVisit.Proofs.Documents.Schedule
import SiteVisit.Proofs.Store.Readback

/-!
The room that documents show for a meeting is the one that a store gives back for it, with its name
and its link, unless the name is empty: then the store has no room for the meeting.
-/

namespace SiteVisit

open Calendar (Timezones)

namespace Documents

theorem mem_intercalate {α : Type} {separator part : List α} {parts : List (List α)} {a : α}
    (hpart : part ∈ parts) (ha : a ∈ part) : a ∈ separator.intercalate parts := by
  induction parts with
  | nil => cases hpart
  | cons first rest ih =>
    by_cases hrest : rest = []
    · subst hrest
      rw [List.intercalate_singleton, ← List.mem_singleton.mp hpart]
      exact ha
    · rw [List.intercalate_cons_of_ne_nil hrest, List.mem_append, List.mem_append]
      rcases List.mem_cons.mp hpart with rfl | hpart
      · exact .inl (.inl ha)
      · exact .inr (ih hpart)

variable {v : Visit} {m : Meeting} {run : Run}

def roomRun (name link : String) : Run :=
  if Text.trim link = "" then shownRun name else shownLink (Text.trim link) name

theorem zoomEntry_eq_roomRun (h : v.IsSound) (hm : m ∈ v.meetings) (hshown : m.showsZoom = true) :
    ∃ z ∈ v.zoomRooms, z.name = m.zoomRoom ∧ zoomEntry v m = roomRun z.name z.link := by
  obtain ⟨z, hz, hname, hlinked, hlinkless⟩ := zoomEntry_eq h hm hshown
  refine ⟨z, hz, hname, ?_⟩
  rw [roomRun]
  split
  · next hlink => exact (hlinkless hlink).1
  · next hlink => exact (hlinked hlink).1

theorem entry_zoom (hshown : m.showsZoom = true) :
    (entry v m m.showsZoom).zoom = some (zoomEntry v m) := by
  rw [entry, if_pos hshown]

namespace Full

def EndsWith (body : List Block) (e : Entry) (run : Run) : Prop :=
  .paragraph (line e) ∈ body ∧ (line e).runs.getLast? = some run

theorem getLast?_separatedRuns (isFirst : Bool) (runs : List Run) :
    (separatedRuns isFirst (runs ++ [run])).getLast? = some run := by
  induction runs generalizing isFirst with
  | nil => rfl
  | cons first rest ih =>
    rw [List.cons_append, separatedRuns, List.getLast?_cons_cons, List.getLast?_cons, ih]
    rfl

theorem getLast?_line {e : Entry} (he : e.zoom = some run) : (line e).runs.getLast? = some run := by
  simp only [line, styled, he, Option.toList_some]
  rw [List.getLast?_cons, getLast?_separatedRuns]
  rfl

theorem endsWith (settings : DocumentSettings) (hm : m ∈ v.meetings)
    (hshown : m.showsZoom = true) :
    EndsWith (((meetingsByDay v).flatMap fun (date, meetings) =>
      shownDay v settings date meetings).map .paragraph) (entry v m m.showsZoom) (zoomEntry v m) := by
  refine ⟨?_, getLast?_line (entry_zoom hshown)⟩
  obtain ⟨day, hday, hmday⟩ := List.mem_flatMap.mp ((perm_meetingsByDay v).mem_iff.mpr hm)
  have hline : line (entry v m m.showsZoom) ∈ shownDay v settings day.1 day.2 := by
    rw [shownDay]
    exact List.mem_cons_of_mem _ (List.mem_flatMap.mpr ⟨m, hmday, List.mem_cons_self⟩)
  exact List.mem_map_of_mem (List.mem_flatMap.mpr ⟨day, hday, hline⟩)

end Full

namespace Summary

def EndsWith (withRoles : Bool) (body : List Block) (e : Entry) (run : Run) : Prop :=
  ∃ table isFirst isLast roles, .table table ∈ body ∧
    shownRow withRoles isFirst isLast e roles ∈ table.rows ∧
    (shownRow withRoles isFirst isLast e roles).cells[2]?.bind (·.paragraphs.getLast?) =
      some { runs := [run] }

theorem mem_shownSlot (withRoles isFirst : Bool) {slot : List Meeting} (hm : m ∈ slot) :
    ∃ isFirst' isLast, shownRow withRoles isFirst' isLast (entry v m m.showsZoom) (shownRoles m) ∈
      shownSlot v withRoles isFirst slot := by
  induction slot generalizing isFirst with
  | nil => cases hm
  | cons first rest ih =>
    rcases List.mem_cons.mp hm with rfl | hm
    · exact ⟨isFirst, rest.isEmpty, List.mem_cons_self⟩
    · obtain ⟨isFirst', isLast, hrow⟩ := ih false hm
      exact ⟨isFirst', isLast, List.mem_cons_of_mem _ hrow⟩

theorem endsWith (withRoles : Bool) (hm : m ∈ v.meetings) (hshown : m.showsZoom = true) :
    EndsWith withRoles ([Block.paragraph {}].intercalate ((slotsByDay v).map fun (date, slots) =>
      [.table (shownTable v withRoles date slots)])) (entry v m m.showsZoom) (zoomEntry v m) := by
  obtain ⟨day, hday, hmday⟩ := List.mem_flatMap.mp ((perm_slotsByDay v).mem_iff.mpr hm)
  obtain ⟨slot, hslot, hmslot⟩ := List.mem_flatMap.mp hmday
  obtain ⟨isFirst, isLast, hrow⟩ := mem_shownSlot (v := v) withRoles true hmslot
  refine ⟨shownTable v withRoles day.1 day.2, isFirst, isLast, shownRoles m,
    mem_intercalate (List.mem_map_of_mem hday) List.mem_cons_self, ?_, ?_⟩
  · rw [shownTable]
    refine List.mem_cons_of_mem _ (List.mem_cons_of_mem _ ?_)
    exact List.mem_flatMap.mpr ⟨slot, hslot, hrow⟩
  · simp [shownRow, shownLocationCell, entry_zoom hshown]

end Summary
end Documents

open Documents (entry roomRun)

/-- The documents of a visit that has been loaded end the entry of a meeting that shows a room with
the name of the room, as a link if it has one. A store of the visit has that room for the meeting,
with the same name and the same link, unless the name is empty. -/
theorem rooms_agree {w : Workbook} {o : LoadOptions} {v : Visit} {messages after : List Message}
    (h : (Visit.load w o).outcome messages = (.ok v, after)) {m : Meeting} (hm : m ∈ v.meetings)
    (hshown : m.showsZoom = true) :
    ∃ z ∈ v.zoomRooms, z.name = m.zoomRoom ∧
      (∀ settings before d reported,
        (Documents.Full.generate v settings).outcome before = (.ok d, reported) →
        Documents.Full.EndsWith d.body (entry v m m.showsZoom) (roomRun z.name z.link)) ∧
      (∀ withRoles settings before d reported,
        (Documents.Summary.generate withRoles v settings).outcome before = (.ok d, reported) →
        Documents.Summary.EndsWith withRoles d.body (entry v m m.showsZoom)
          (roomRun z.name z.link)) ∧
      ∀ (zones : Timezones) (zone path : String) (earlier s stored : Store)
        (before reported : List Message) (i : Nat),
        Store.populateOver earlier path v zone before zones = (.ok s, reported, stored) →
        v.meetings[i]? = some m → Store.isRowNumber (i + 1) = true →
        ∃ d, s.detail? (i + 1) = .ok (some d) ∧
          (m.zoomRoom ≠ "" → ∃ id, d.room = some ⟨id, z.name, z.link⟩) ∧
          (m.zoomRoom = "" → d.room = none) := by
  obtain ⟨_, _, _, -, -, -, -, hsound⟩ := Visit.sheets_of_read (Visit.load_eq_ok h)
  obtain ⟨z, hz, hname, hrun⟩ := Documents.zoomEntry_eq_roomRun hsound hm hshown
  refine ⟨z, hz, hname, ?_, ?_, ?_⟩
  · intro settings before d reported hd
    obtain ⟨hbody, -⟩ := Documents.Full.generate_gives v settings before d reported hd
    rw [hbody, ← hrun]
    exact Documents.Full.endsWith settings hm hshown
  · intro withRoles settings before d reported hd
    obtain ⟨hbody, -⟩ := Documents.Summary.generate_gives withRoles v settings before d reported hd
    rw [hbody, ← hrun]
    exact Documents.Summary.endsWith withRoles hm hshown
  · intro zones zone path earlier s stored before reported i hstored hi hid
    obtain ⟨hholds, -, -⟩ := Store.populateOver_ok hsound.ids hstored
    obtain ⟨row, -, -, hisRow, hdetail⟩ := hholds.exists_detail hi hid
    refine ⟨s.detailOf row, hdetail, ?_⟩
    rcases hholds.room hsound.rooms hisRow with ⟨hempty, hnone⟩ | ⟨z', hz', hname', hne, hroom⟩
    · exact ⟨fun hne => absurd hempty hne, fun _ => hnone⟩
    · -- No two rooms have the same name.
      obtain rfl : z' = z := List.inj_on_of_nodup_map hsound.rooms hz' hz (hname'.trans hname.symm)
      exact ⟨fun _ => ⟨_, hroom⟩, fun hempty => absurd hempty hne⟩

open Documents (crossBook crossOpening crossRead load_crossBook)

theorem rooms_agree_crossBook : ∃ s reported stored d id,
    Store.populateOver {} "visit.db" crossRead "America/New_York" [] = (.ok s, reported, stored) ∧
    s.detail? 1 = .ok (some d) ∧ d.room = some ⟨id, "Red", "https://zoom.us/j/1"⟩ := by
  obtain ⟨after, hload⟩ := load_crossBook
  obtain ⟨s, hs⟩ := Option.isSome_iff_exists.mp (show (Store.populateOver {} "visit.db" crossRead
    "America/New_York" []).1.toOption.isSome = true by decide +kernel)
  obtain ⟨⟨reported, stored⟩, hstored⟩ := exists_outcome_of_toOption hs
  obtain ⟨z, hz, hname, -, -, hdetails⟩ :=
    rooms_agree hload (m := crossOpening) List.mem_cons_self (by decide)
  obtain ⟨d, hd, hroom, -⟩ := hdetails _ _ _ _ _ _ _ _ 0 hstored rfl (by decide)
  obtain ⟨id, hid⟩ := hroom (by decide)
  obtain rfl : z = ⟨"Red", "https://zoom.us/j/1"⟩ := by
    have hrooms : ∀ z ∈ crossRead.zoomRooms, z.name = "Red" → z = ⟨"Red", "https://zoom.us/j/1"⟩ := by
      decide
    exact hrooms z hz hname
  exact ⟨s, reported, stored, d, id, hstored, hd, hid⟩

def namelessBook : Workbook := [
  { name := "Proposed Meetings-MSCHE Team"
    rows := [
      ["Date", "Time", "Meeting Location", "Zoom Room Option", "Zoom Link",
        "Interview Assignments", "Team Chair", "SI", "SII", "SIII", "SIV", "SV", "SVI", "SVII",
        "Individuals", "Hide Names"].map .text,
      ["Monday, June 2, 2025", "9:00-10:00 a.m.", "Hall", "Primary Room", "", "Opening", "", "",
        "", "", "", "", "", "", "", ""].map .text] },
  { name := "Participant List"
    rows := [
      ["PFX", "First Name", "Last Name", "Title /Involvement", "Staff", "Faculty", "Email",
        "Team Member"].map .text] },
  { name := "Zoom Rooms"
    rows := [["Zoom Room Name", "Link"].map .text, ["", "https://zoom.us/j/1"].map .text] }]

def namelessOpening : Meeting where
  name := "Opening"
  date := "Monday, June 2, 2025"
  day := Calendar.Date.ofParts? 2025 6 2
  time := "9:00-10:00 a.m."
  start := (Calendar.TimeOfDay.ofClock 9 0).toOption
  finish := (Calendar.TimeOfDay.ofClock 10 0).toOption
  location := "Hall"
  zoomOption := .primary
  zoomRoom := ""

def namelessRead : Visit where
  meetings := [namelessOpening]
  zoomRooms := [⟨"", "https://zoom.us/j/1"⟩]

/-- The link of a room without a name is in the documents and not in the store. -/
theorem nameless_room_not_stored :
    (∃ after, (Visit.load namelessBook {}).outcome [] = (.ok namelessRead, after)) ∧
    namelessOpening.showsZoom = true ∧
    (∃ d reported, (Documents.Full.generate namelessRead {}).outcome [] = (.ok d, reported) ∧
      d.links = ["https://zoom.us/j/1"]) ∧
    ∃ s reported detail, Store.populateOver {} "visit.db" namelessRead "America/New_York" [] =
        (.ok s, reported, s) ∧
      s.detail? 1 = .ok (some detail) ∧ detail.room = none := by
  refine ⟨exists_outcome_of_toOption (by decide +kernel), by decide, ?_, ?_⟩
  · have hlinks : ((Documents.Full.generate namelessRead {}).outcome []).1.toOption.map (·.links) =
        some ["https://zoom.us/j/1"] := by decide +kernel
    obtain ⟨d, hd, hlinks⟩ := Option.map_eq_some_iff.mp hlinks
    obtain ⟨reported, hgenerate⟩ := exists_outcome_of_toOption hd
    exact ⟨d, reported, hgenerate, hlinks⟩
  · let row : Store.MeetingRow :=
      { id := 1, date := "Monday, June 2, 2025", time := "9:00-10:00 a.m."
        start := some "2025-06-02T13:00:00+00:00", finish := some "2025-06-02T14:00:00+00:00"
        name := "Opening", location := "Hall", room := none, roles := none }
    let s : Store := { rooms := [⟨1, "", "https://zoom.us/j/1"⟩], meetings := [row] }
    have hstored : (Store.populateOver {} "visit.db" namelessRead "America/New_York" []).1.toOption =
        some s := by decide +kernel
    obtain ⟨⟨reported, stored⟩, hpopulate⟩ := exists_outcome_of_toOption hstored
    obtain ⟨-, rfl, -⟩ := Store.populateOver_ok (by decide) hpopulate
    exact ⟨s, reported, s.detailOf row, hpopulate, rfl, rfl⟩

end SiteVisit
