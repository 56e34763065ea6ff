import SiteVisit.Proofs.Folder
import SiteVisit.Proofs.Store.Populate
import SiteVisit.Store.Place
import SiteVisit.Store.Query

namespace SiteVisit.Store

open Calendar (Date TimeOfDay Timezones)

variable {zones : Timezones} {zone : String} {v : Visit} {s : Store}

theorem filter_pairsFrom {number : Participant → Nat} (k : Nat) {i : Nat} {meetings : List Meeting}
    {m : Meeting} (hm : meetings[i]? = some m) :
    (pairsFrom v number k meetings).filter (·.1 == k + i) =
      (v.guests m).map fun p => (k + i, number p) := by
  induction meetings generalizing k i with
  | nil => cases hm
  | cons first rest ih =>
    rw [pairsFrom, List.filter_append]
    cases i with
    | zero =>
      cases hm
      have hown : ∀ pair ∈ (v.guests m).map (fun p => (k, number p)), (pair.1 == k) = true := by
        simp
      have hothers : ∀ pair ∈ pairsFrom v number (k + 1) rest, ¬ (pair.1 == k) = true := by
        intro pair hpair
        have hle := le_of_mem_pairsFrom hpair
        simp only [beq_iff_eq]
        omega
      rw [Nat.add_zero, List.filter_eq_self.mpr hown, List.filter_eq_nil_iff.mpr hothers,
        List.append_nil]
    | succ i =>
      have hsum : k + (i + 1) = k + 1 + i := by omega
      have hfirst : ∀ pair ∈ (v.guests first).map (fun p => (k, number p)),
          ¬ (pair.1 == k + 1 + i) = true := by
        intro pair hpair
        obtain ⟨p, -, rfl⟩ := List.mem_map.mp hpair
        simp only [beq_iff_eq]
        omega
      rw [hsum, List.filter_eq_nil_iff.mpr hfirst, List.nil_append]
      exact ih (k + 1) hm

theorem filterMap_attendance {β : Type} (lookup : Nat → Option β) (meeting k : Nat)
    (pairs : List (Nat × Nat)) :
    ((rowsFrom attendanceRow k pairs).filter (·.meeting == meeting)).filterMap
        (fun a => lookup a.person) =
      (pairs.filter (·.1 == meeting)).filterMap fun pair => lookup pair.2 := by
  induction pairs generalizing k with
  | nil => rfl
  | cons pair rest ih =>
    by_cases hpair : pair.1 = meeting
    · simp [rowsFrom, attendanceRow, hpair, List.filterMap_cons, ih]
    · simp [rowsFrom, attendanceRow, hpair, ih]

namespace Holds

theorem find?_people (h : Holds zones zone v s) {p : Participant} (hp : p ∈ v.participants) :
    s.people.find? (·.id == personId v p) = some (personRow p (personId v p)) := by
  rw [h.people, personId, find?_rowsFrom (fun _ _ => rfl), List.getElem?_idxOf hp]
  rfl

theorem peopleAt (h : Holds zones zone v s) {i : Nat} {m : Meeting}
    (hm : v.meetings[i]? = some m) :
    s.peopleAt (1 + i) = (v.guests m).map fun p => personRow p (personId v p) := by
  rw [Store.peopleAt, h.attendance,
    filterMap_attendance fun person => s.people.find? (·.id == person), filter_pairsFrom 1 hm,
    List.filterMap_map]
  rw [← List.filterMap_eq_map]
  exact List.filterMap_congr fun p hp => h.find?_people (Visit.mem_guests hp)

end Holds

theorem roomNumber_ok (hrooms : (v.zoomRooms.map (·.name)).Nodup) {m : Meeting}
    {room : Option Nat} (h : roomNumber (roomNumbers v) m = .ok room) :
    (m.zoomRoom = "" ∧ room = none) ∨
      ∃ z ∈ v.zoomRooms, z.name = m.zoomRoom ∧ m.zoomRoom ≠ "" ∧
        room = some (1 + v.zoomRooms.idxOf z) := by
  rw [roomNumber] at h
  split at h
  · next hempty =>
    cases h
    exact .inl ⟨String.isEmpty_iff.mp hempty, rfl⟩
  · next hempty =>
    by_cases hknown : ∃ z ∈ v.zoomRooms, z.name = m.zoomRoom
    · obtain ⟨z, hz, hname⟩ := hknown
      rw [← hname, roomNumbers, lookup_numbers hrooms 1 hz] at h
      cases h
      exact .inr ⟨z, hz, hname, fun heq => hempty (String.isEmpty_iff.mpr heq), rfl⟩
    · rw [roomNumbers, lookup_numbers_eq_none 1 fun z hz hname => hknown ⟨z, hz, hname⟩] at h
      cases h

namespace Holds

theorem find?_rooms (h : Holds zones zone v s) {z : ZoomRoom} (hz : z ∈ v.zoomRooms) :
    s.rooms.find? (·.id == 1 + v.zoomRooms.idxOf z) =
      some (roomRow z (1 + v.zoomRooms.idxOf z)) := by
  rw [h.rooms, find?_rowsFrom (fun _ _ => rfl), List.getElem?_idxOf hz]
  rfl

theorem room (h : Holds zones zone v s) (hrooms : (v.zoomRooms.map (·.name)).Nodup) {m : Meeting}
    {row : MeetingRow} (hrow : IsRowOf zones zone (roomNumbers v) m row) :
    (m.zoomRoom = "" ∧ (s.detailOf row).room = none) ∨
      ∃ z ∈ v.zoomRooms, z.name = m.zoomRoom ∧ m.zoomRoom ≠ "" ∧
        (s.detailOf row).room = some (roomRow z (1 + v.zoomRooms.idxOf z)) := by
  rcases roomNumber_ok hrooms hrow.room with ⟨hempty, hnone⟩ | ⟨z, hz, hname, hne, hsome⟩
  · exact .inl ⟨hempty, by rw [detailOf, hnone]; rfl⟩
  · refine .inr ⟨z, hz, hname, hne, ?_⟩
    rw [detailOf, hsome]
    exact h.find?_rooms hz

theorem detail? (h : Holds zones zone v s) {id : Int} (hid : isRowNumber id = true) :
    s.detail? id = .ok ((if 1 ≤ id then s.meetings[(id - 1).toNat]? else none).map s.detailOf) := by
  have hnumbers : s.meetings.map (·.id) = List.range' 1 s.meetings.length := by
    rw [h.numbers, h.meetings.length_eq]
  rw [Store.detail?, if_pos hid]
  congr 2
  split
  · next hpos =>
    rw [← find?_of_numbers hnumbers]
    refine congrArg (fun test => s.meetings.find? test) (funext fun row => ?_)
    rw [Bool.eq_iff_iff]
    simp only [beq_iff_eq]
    omega
  · next hpos =>
    rw [List.find?_eq_none]
    intro row hrow heq
    have hmem : row.id ∈ List.range' 1 s.meetings.length := hnumbers ▸ List.mem_map_of_mem hrow
    rw [List.mem_range'_1] at hmem
    simp only [beq_iff_eq] at heq
    omega

theorem detail?_eq_none (h : Holds zones zone v s) {id : Int} (hid : isRowNumber id = true)
    (hout : id < 1 ∨ v.meetings.length < id) : s.detail? id = .ok none := by
  have hlength := h.meetings.length_eq
  rw [h.detail? hid]
  split
  · next hpos =>
    rw [List.getElem?_eq_none (by omega)]
    rfl
  · rfl

theorem exists_row (h : Holds zones zone v s) {i : Nat} {m : Meeting}
    (hm : v.meetings[i]? = some m) :
    ∃ row, s.meetings[i]? = some row ∧ row.id = 1 + i ∧
      IsRowOf zones zone (roomNumbers v) m row := by
  obtain ⟨hlength, hrows⟩ := List.forall₂_iff_get.mp h.meetings
  obtain ⟨hi, rfl⟩ := List.getElem?_eq_some_iff.mp hm
  have hi' : i < s.meetings.length := hlength ▸ hi
  refine ⟨s.meetings[i], List.getElem?_eq_getElem hi', ?_, hrows i hi hi'⟩
  have hid : (s.meetings.map (·.id))[i]? = some s.meetings[i].id := by
    rw [List.getElem?_map, List.getElem?_eq_getElem hi', Option.map_some]
  rw [h.numbers, List.getElem?_range' hi] at hid
  simpa using hid.symm

theorem teamMembers (h : Holds zones zone v s) {i : Nat} {m : Meeting}
    (hm : v.meetings[i]? = some m) {row : MeetingRow} (hid : row.id = 1 + i) :
    (s.detailOf row).teamMembers =
      ((v.guests m).filter (·.isTeamMember)).map fun p => personRow p (personId v p) := by
  change (s.peopleAt row.id).filter (·.isTeamMember) = _
  rw [hid, h.peopleAt hm, List.filter_map]
  rfl

theorem representatives (h : Holds zones zone v s) {i : Nat} {m : Meeting}
    (hm : v.meetings[i]? = some m) {row : MeetingRow} (hid : row.id = 1 + i) :
    (s.detailOf row).representatives =
      ((v.guests m).filter (!·.isTeamMember)).map fun p => personRow p (personId v p) := by
  change (s.peopleAt row.id).filter (!·.isTeamMember) = _
  rw [hid, h.peopleAt hm, List.filter_map]
  rfl

theorem exists_detail (h : Holds zones zone v s) {i : Nat} {m : Meeting}
    (hm : v.meetings[i]? = some m) (hid : isRowNumber (i + 1) = true) :
    ∃ row, s.meetings[i]? = some row ∧ row.id = 1 + i ∧
      IsRowOf zones zone (roomNumbers v) m row ∧
      s.detail? (i + 1) = .ok (some (s.detailOf row)) := by
  obtain ⟨row, hrow, hnumber, hisRow⟩ := h.exists_row hm
  refine ⟨row, hrow, hnumber, hisRow, ?_⟩
  have hindex : ((i : Int) + 1 - 1).toNat = i := by omega
  rw [h.detail? hid, if_pos (by omega), hindex, hrow]
  rfl

end Holds

section Populate

variable {earlier : Store} {path : String} {messages : List Message}

theorem populateOver_ok (hids : (v.participants.map (·.id)).Nodup) {after : List Message}
    {stored : Store}
    (h : populateOver earlier path v zone messages zones = (.ok s, after, stored)) :
    Holds zones zone v s ∧ stored = s ∧
      ((write path v zone zones).outcome { saved := earlier, messages }).1 = .ok s.counts := by
  rcases hwrite : (write path v zone zones).outcome { saved := earlier, messages } with
    ⟨_ | counts, s'⟩
  · simp only [populateOver, hwrite] at h
    cases h
  · simp only [populateOver, hwrite] at h
    cases h
    obtain ⟨hholds, rfl⟩ := write_ok hids hwrite
    exact ⟨hholds, rfl, rfl⟩

/-- What was stored before does not matter. -/
theorem populateOver_earlier :
    populateOver earlier path v zone messages zones =
      populateOver {} path v zone messages zones := by
  rw [populateOver, populateOver, outcome_write, outcome_write]

theorem populateIn_ok {α : Type} [StoreContent α] {f f' : Folder α} {content : Store → α}
    {isStore : α → Bool} {after : List Message}
    (h : populateIn f content isStore path v zone messages zones = (.ok s, after, f')) :
    ∃ stored, populateOver (earlierIn f path) path v zone messages zones =
      (.ok s, after, stored) ∧ f' = f.put path (content stored) := by
  rw [populateIn] at h
  split at h
  · cases h
  · rcases hover : populateOver (earlierIn f path) path v zone messages zones with
      ⟨result, reported, stored⟩
    simp only [hover] at h
    cases h
    exact ⟨stored, rfl, rfl⟩

/-- After a visit has been stored, in a new file or in place of whatever the file held, its
meetings are all there in their order, each with its people and its room, and nothing else is. -/
theorem readback {α : Type} [StoreContent α] {f f' : Folder α} {content : Store → α}
    {isStore : α → Bool} {after : List Message}
    (hids : (v.participants.map (·.id)).Nodup) (hrooms : (v.zoomRooms.map (·.name)).Nodup)
    (h : populateIn f content isStore path v zone messages zones = (.ok s, after, f')) :
    f'.entry path = .file (content s) ∧
    s.meetings.map (·.id) = List.range' 1 v.meetings.length ∧
    List.Forall₂ (fun (m : Meeting) (row : MeetingRow) =>
      row.name = m.name ∧ row.date = m.date ∧ row.time = m.time ∧ row.location = m.location ∧
      Stamp.ofLocal m.day m.start zone zones = .ok row.start ∧
      Stamp.ofLocal m.day m.finish zone zones = .ok row.finish) v.meetings s.meetings ∧
    (∀ (i : Nat) (m : Meeting), v.meetings[i]? = some m → isRowNumber (i + 1) = true →
      ∃ d, s.detail? (i + 1) = .ok (some d) ∧ s.meetings[i]? = some d.meeting ∧
        d.teamMembers =
          ((v.guests m).filter (·.isTeamMember)).map (fun p => personRow p (personId v p)) ∧
        d.representatives =
          ((v.guests m).filter (!·.isTeamMember)).map (fun p => personRow p (personId v p)) ∧
        ((m.zoomRoom = "" ∧ d.room = none) ∨
          ∃ z ∈ v.zoomRooms, z.name = m.zoomRoom ∧ m.zoomRoom ≠ "" ∧
            d.room = some (roomRow z (1 + v.zoomRooms.idxOf z)))) ∧
    (∀ m, ((v.guests m).map (·.id)).Nodup) ∧
    (∀ id, isRowNumber id = true → id < 1 ∨ v.meetings.length < id → s.detail? id = .ok none) ∧
    ((write path v zone zones).outcome { saved := earlierIn f path, messages }).1 = .ok s.counts ∧
    populateOver {} path v zone messages zones = (.ok s, after, s) := by
  obtain ⟨stored, hover, rfl⟩ := populateIn_ok h
  obtain ⟨hholds, rfl, hcounts⟩ := populateOver_ok hids hover
  refine ⟨f.entry_put path _, hholds.numbers, ?_, ?_, Visit.nodup_ids_guests hids, ?_, hcounts,
    populateOver_earlier.symm.trans hover⟩
  · exact hholds.meetings.imp fun _ _ row =>
      ⟨row.name, row.date, row.time, row.location, row.start, row.finish⟩
  · intro i m hm hid
    obtain ⟨row, hrow, hnumber, hisRow, hdetail⟩ := hholds.exists_detail hm hid
    exact ⟨stored.detailOf row, hdetail, hrow, hholds.teamMembers hm hnumber,
      hholds.representatives hm hnumber, hholds.room hrooms hisRow⟩
  · intro id hid hout
    exact hholds.detail?_eq_none hid hout

end Populate

/-- A visit with a room that is named and one that is not, and with somebody who is listed twice. -/
def tour : Visit where
  meetings := [
    { name := "Opening", date := "Monday", day := Date.ofParts? 2025 6 2, time := "9 a.m."
      start := (TimeOfDay.ofClock 9 0).toOption, finish := (TimeOfDay.ofClock 10 0).toOption
      location := "Hall", zoomRoom := "Red", roles := [.chair]
      individuals := [⟨"Bo Ek", "bo-ek"⟩, ⟨"Nobody", "nobody"⟩, ⟨"Bo Ek", "bo-ek"⟩] },
    { name := "Lunch", date := "", time := "", location := "", zoomRoom := "" }]
  participants := [
    { lastName := "Lee", fullName := "Ann Lee", id := "ann-lee", roles := ["Team Chair"] },
    { lastName := "Ek", fullName := "Bo Ek", id := "bo-ek" }]
  zoomRooms := [⟨"Blue", ""⟩, ⟨"Red", "https://zoom.us/j/1"⟩]

def tourStore : Store where
  rooms := [⟨1, "Blue", ""⟩, ⟨2, "Red", "https://zoom.us/j/1"⟩]
  meetings := [
    { id := 1, date := "Monday", time := "9 a.m.", start := some "2025-06-02T09:00:00+00:00"
      finish := some "2025-06-02T10:00:00+00:00", name := "Opening", location := "Hall"
      room := some 2, roles := none },
    { id := 2, date := "", time := "", start := none, finish := none, name := "Lunch"
      location := "", room := none, roles := none }]
  people := [⟨1, "ann-lee", "Ann Lee", "", true⟩, ⟨2, "bo-ek", "Bo Ek", "", false⟩]
  attendance := [⟨1, 1, 2⟩, ⟨2, 1, 1⟩]

theorem populateOver_tour (earlier : Store) :
    populateOver earlier "visit.db" tour "UTC" [] =
      (.ok tourStore, [⟨.error, "missing individual in Opening: nobody"⟩,
        ⟨.info, "Populated visit.db: zoom_rooms=2, meetings=2, participants=2, " ++
          "meeting_participation=2"⟩], tourStore) := by
  rw [populateOver_earlier]
  exact Prod.ext (eq_ok_of_toOption (by decide +kernel)) (by decide +kernel)

theorem populateIn_tour (earlier : Store) :
    populateIn (⟨[("visit.db", earlier)]⟩ : Folder Store) id (fun _ => true) "visit.db" tour "UTC"
      [] = (.ok tourStore, [⟨.error, "missing individual in Opening: nobody"⟩,
        ⟨.info, "Populated visit.db: zoom_rooms=2, meetings=2, participants=2, " ++
          "meeting_participation=2"⟩], ⟨[("visit.db", tourStore)]⟩) := by
  have hwritable : requireWritable (⟨[("visit.db", earlier)]⟩ : Folder Store) (fun _ => true)
      "visit.db" = .ok () := by
    rfl
  simp only [populateIn, hwritable, populateOver_tour]
  rfl

theorem readback_tour : ∃ d, tourStore.detail? 1 = .ok (some d) ∧
    d.teamMembers = [⟨1, "ann-lee", "Ann Lee", "", true⟩] ∧
    d.representatives = [⟨2, "bo-ek", "Bo Ek", "", false⟩] := by
  obtain ⟨-, -, -, hdetail, -⟩ :=
    readback (by decide) (by decide) (populateIn_tour { rooms := [⟨1, "Old", ""⟩] })
  obtain ⟨d, hd, -, hteam, hothers, -⟩ := hdetail 0 _ rfl (by decide)
  refine ⟨d, hd, ?_, ?_⟩
  · rw [hteam]
    decide
  · rw [hothers]
    decide

end SiteVisit.Store
