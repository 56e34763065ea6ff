import SiteVisit.Proofs.Visit.Records
import SiteVisit.Proofs.Visit.Roles

namespace SiteVisit

theorem Role.ofLabel?_isSome {label : String} :
    (Role.ofLabel? label).isSome ↔ ∃ r : Role, r.label = label := by
  simp only [Role.ofLabel?, List.find?_isSome, beq_iff_eq]
  constructor
  · rintro ⟨r, -, hr⟩
    exact ⟨r, hr⟩
  · rintro ⟨r, hr⟩
    exact ⟨r, by cases r <;> decide, hr⟩

theorem checkRoles_eq_ok {participants : List Participant} :
    checkRoles participants = .ok () ↔
      ∀ p ∈ participants, ∀ role ∈ p.roles, ∃ r : Role, r.label = role := by
  simp only [checkRoles, forM_eq_ok, ← Role.ofLabel?_isSome]
  refine forall₂_congr fun p _ => forall₂_congr fun role _ => ?_
  split
  · next hrole => simp [hrole]
  · next hrole => simp [hrole]

theorem Mendable.checkRoles (participants : List Participant) :
    Mendable (checkRoles participants) := by
  refine forM fun p _ => forM fun role _ => ?_
  split
  · exact ok ()
  · exact problem _

theorem checkZoomRooms_eq_ok {meetings : List Meeting} {rooms : List ZoomRoom} :
    checkZoomRooms meetings (fun name => rooms.any (·.name == name)) = .ok () ↔
      ∀ m ∈ meetings, m.showsZoom = true ∨ m.zoomRoom ≠ "" → ∃ z ∈ rooms, z.name = m.zoomRoom := by
  simp only [checkZoomRooms, forM_eq_ok]
  apply forall₂_congr
  intro m _
  rw [ite_error_eq_ok]
  simp only [Bool.and_eq_true, Bool.or_eq_true, bne_iff_ne, not_and, Bool.not_eq_true,
    Bool.not_eq_false', List.any_eq_true, beq_iff_eq]

theorem Mendable.checkZoomRooms (meetings : List Meeting) (hasRoom : String → Bool) :
    Mendable (checkZoomRooms meetings hasRoom) := by
  apply forM
  intro m _
  split
  · exact problem _
  · exact ok ()

theorem Mendable.datedRows (sheet : String) (rows : List NumberedRow) :
    Mendable (datedRows sheet rows) := by
  induction rows with
  | nil => exact ok []
  | cons row rest ih =>
    have hdated : Mendable (isDated sheet row) :=
      ((selectHeader true "Date" row.value).locating _).bind fun _ _ => ok _
    exact hdated.bind fun _ _ => ih.bind fun _ _ => ok _

theorem mem_datedRows {sheet : String} {rows dated : List NumberedRow}
    (h : datedRows sheet rows = .ok dated) {row : NumberedRow} (hrow : row ∈ dated) :
    row ∈ rows ∧ isDated sheet row = .ok true := by
  induction rows generalizing dated with
  | nil =>
    cases h
    cases hrow
  | cons first rest ih =>
    simp only [datedRows, bind_eq_ok, pure_eq_ok, Except.ok.injEq] at h
    obtain ⟨isIn, hfirst, others, hothers, rfl⟩ := h
    have hcases : isIn = true ∧ row = first ∨ row ∈ others := by
      split at hrow
      · next hin => exact (List.mem_cons.mp hrow).imp_left fun heq => ⟨hin, heq⟩
      · exact .inr hrow
    rcases hcases with ⟨rfl, rfl⟩ | hrow
    · exact ⟨List.mem_cons_self, hfirst⟩
    · obtain ⟨hmem, hdated⟩ := ih hothers hrow
      exact ⟨List.mem_cons_of_mem first hmem, hdated⟩

theorem readParticipants_eq_ok {rows : List NumberedRow} {fromColumn : Bool} {sheet : String}
    {participants : List Participant} :
    readParticipants rows fromColumn sheet = .ok participants ↔
      (∃ records, mapRows (.nested (participantFields fromColumn)) (some sheet) rows = .ok records ∧
        participants = records.map Participant.ofRecord) ∧ (participants.map (·.id)).Nodup := by
  simp only [readParticipants, bind_eq_ok, pure_eq_ok, Except.ok.injEq, index_eq_ok]
  constructor
  · rintro ⟨records, hrecords, _, ⟨hids, -⟩, rfl⟩
    exact ⟨⟨records, hrecords, rfl⟩, hids⟩
  · rintro ⟨⟨records, hrecords, rfl⟩, hids⟩
    exact ⟨records, hrecords, _, ⟨hids, rfl⟩, rfl⟩

theorem readMeetings_eq_ok {rows : List NumberedRow} {sheet : String} {meetings : List Meeting} :
    readMeetings rows sheet = .ok meetings ↔
      ∃ dated records, datedRows sheet rows = .ok dated ∧
        mapRows (.nested meetingFields) (some sheet) dated = .ok records ∧
        meetings = records.map Meeting.ofRecord := by
  simp only [readMeetings, bind_eq_ok, pure_eq_ok, Except.ok.injEq]
  constructor
  · rintro ⟨dated, hdated, records, hrecords, rfl⟩
    exact ⟨dated, records, hdated, hrecords, rfl⟩
  · rintro ⟨dated, records, hdated, hrecords, rfl⟩
    exact ⟨dated, hdated, records, hrecords, rfl⟩

theorem readZoomRooms_eq_ok {rows : List NumberedRow} {sheet : String} {rooms : List ZoomRoom} :
    readZoomRooms rows sheet = .ok rooms ↔
      (∃ records, mapRows (.nested zoomRoomFields) (some sheet) rows = .ok records ∧
        rooms = records.map ZoomRoom.ofRecord) ∧ (rooms.map (·.name)).Nodup := by
  simp only [readZoomRooms, bind_eq_ok, pure_eq_ok, Except.ok.injEq, index_eq_ok]
  constructor
  · rintro ⟨records, hrecords, _, ⟨hnames, -⟩, rfl⟩
    exact ⟨⟨records, hrecords, rfl⟩, hnames⟩
  · rintro ⟨⟨records, hrecords, rfl⟩, hnames⟩
    exact ⟨records, hrecords, _, ⟨hnames, rfl⟩, rfl⟩

theorem Mendable.sheet (w : Workbook) (name : String) : Mendable (w.sheet name) := by
  rw [Workbook.sheet]
  split
  · exact ok _
  · exact problem _

namespace Visit

structure IsSound (v : Visit) : Prop where
  ids : (v.participants.map (·.id)).Nodup
  rooms : (v.zoomRooms.map (·.name)).Nodup
  roles : ∀ p ∈ v.participants, ∀ role ∈ p.roles, ∃ r : Role, r.label = role
  known : ∀ m ∈ v.meetings, m.showsZoom = true ∨ m.zoomRoom ≠ "" →
    ∃ z ∈ v.zoomRooms, z.name = m.zoomRoom

/-- The visit that three sheets make, sound or not: all rows can be mapped, and the roles can be
read. -/
structure Drafted (o : LoadOptions) (schedule roster rooms : Sheet) (v : Visit) : Prop where
  participants : ∃ records,
    mapRows (.nested (participantFields o.roleSource.fromColumn)) (some o.sheets.participants)
      (roster.records 0) = .ok records ∧
    RolesRead schedule (records.map Participant.ofRecord) v.participants o.roleSource
  meetings : ∃ dated records,
    datedRows o.sheets.meetings (schedule.records o.meetingsHeader) = .ok dated ∧
    mapRows (.nested meetingFields) (some o.sheets.meetings) dated = .ok records ∧
    v.meetings = records.map Meeting.ofRecord
  zoomRooms : ∃ records,
    mapRows (.nested zoomRoomFields) (some o.sheets.zoomRooms) (rooms.records 0) = .ok records ∧
    v.zoomRooms = records.map ZoomRoom.ofRecord

theorem read_eq_ok {w : Workbook} {o : LoadOptions} {schedule roster rooms : Sheet} {v : Visit}
    (hschedule : w.sheet o.sheets.meetings = .ok schedule)
    (hroster : w.sheet o.sheets.participants = .ok roster)
    (hrooms : w.sheet o.sheets.zoomRooms = .ok rooms) :
    read w o = .ok v ↔ Drafted o schedule roster rooms v ∧ v.IsSound := by
  simp only [read, hschedule, hroster, hrooms, ok_bind, bind_eq_ok, pure_eq_ok, Except.ok.injEq,
    readParticipants_eq_ok, readMeetings_eq_ok, readZoomRooms_eq_ok, withRoles_eq_ok]
  constructor
  · rintro ⟨before, ⟨⟨people, hpeople, rfl⟩, hids⟩, meetings, hmeetings, zoomRooms,
      ⟨hzoomRooms, hnames⟩, after, hafter, _, hroles, _, hknown, rfl⟩
    refine ⟨⟨⟨people, hpeople, hafter⟩, hmeetings, hzoomRooms⟩, ?_, hnames,
      checkRoles_eq_ok.mp hroles, checkZoomRooms_eq_ok.mp hknown⟩
    obtain ⟨labels, rfl⟩ := hafter.eq_map_gain
    simpa only [List.map_map, Function.comp_def, Participant.gain_id] using hids
  · rintro ⟨⟨⟨people, hpeople, hafter⟩, hmeetings, hzoomRooms⟩, hids, hnames, hroles, hknown⟩
    refine ⟨_, ⟨⟨people, hpeople, rfl⟩, ?_⟩, _, hmeetings, _, ⟨hzoomRooms, hnames⟩, _, hafter, (),
      checkRoles_eq_ok.mpr hroles, (), checkZoomRooms_eq_ok.mpr hknown, rfl⟩
    obtain ⟨labels, heq⟩ := hafter.eq_map_gain
    rw [heq] at hids
    simpa only [List.map_map, Function.comp_def, Participant.gain_id] using hids

theorem mendable_read (w : Workbook) (o : LoadOptions) : Mendable (read w o) := by
  have hrow (s : Sheet) (header : Int) :
      ∀ row ∈ s.records header, row.value.IsRow fun _ => True :=
    s.records_isRow trivial (fun _ _ _ _ => trivial) header
  apply (Mendable.sheet w _).bind
  intro schedule _
  apply (Mendable.sheet w _).bind
  intro roster _
  apply (Mendable.sheet w _).bind
  intro rooms _
  have hparticipants : Mendable (readParticipants (roster.records 0) o.roleSource.fromColumn
      o.sheets.participants) :=
    (Mendable.mapRows rfl fun row _ => mendable_participant row.value _).bind fun _ _ =>
      (Mendable.index _).bind fun _ _ => .ok _
  have hmeetings : Mendable (readMeetings (schedule.records o.meetingsHeader) o.sheets.meetings) :=
    (Mendable.datedRows _ _).bind fun dated hdated =>
      (Mendable.mapRows rfl fun row hmem =>
        mendable_meeting (hrow schedule _ row (mem_datedRows hdated hmem).1)).bind fun _ _ => .ok _
  have hzoomRooms : Mendable (readZoomRooms (rooms.records 0) o.sheets.zoomRooms) :=
    (Mendable.mapRows rfl fun row _ => mendable_zoomRoom row.value).bind fun _ _ =>
      (Mendable.index _).bind fun _ _ => .ok _
  refine hparticipants.bind fun _ _ => hmeetings.bind fun _ _ => hzoomRooms.bind fun _ _ => ?_
  refine (Mendable.withRoles _ _ _).bind fun _ _ => ?_
  exact (Mendable.checkRoles _).bind fun _ _ => (Mendable.checkZoomRooms _ _).bind fun _ _ => .ok _

theorem room?_eq_some {v : Visit} (hn : (v.zoomRooms.map (·.name)).Nodup) (name : String)
    (z : ZoomRoom) : v.room? name = some z ↔ z ∈ v.zoomRooms ∧ z.name = name := by
  constructor
  · intro h
    exact ⟨List.mem_reverse.mp (List.mem_of_find?_eq_some h), by simpa using List.find?_some h⟩
  · rintro ⟨hz, rfl⟩
    obtain ⟨z', hz'⟩ : ∃ z', v.room? z.name = some z' := by
      rw [← Option.isSome_iff_exists, room?, List.find?_isSome]
      exact ⟨z, List.mem_reverse.mpr hz, beq_self_eq_true _⟩
    have hmem : z' ∈ v.zoomRooms := List.mem_reverse.mp (List.mem_of_find?_eq_some hz')
    have hname : z'.name = z.name := by simpa using List.find?_some hz'
    rw [hz', List.inj_on_of_nodup_map hn hmem hz hname]

namespace Drafted

variable {o : LoadOptions} {schedule roster rooms : Sheet} {v : Visit}

theorem id_eq_slug (h : Drafted o schedule roster rooms v) :
    ∀ p ∈ v.participants, p.id = Text.slug p.fullName := by
  obtain ⟨records, hrecords, hroles⟩ := h.participants
  obtain ⟨labels, hafter⟩ := hroles.eq_map_gain
  intro p hp
  rw [hafter, List.map_map] at hp
  obtain ⟨r, hr, rfl⟩ := List.mem_map.mp hp
  obtain ⟨row, -, hrow⟩ := exists_row_of_mapRows hrecords hr
  exact id_of_eval hrow

theorem exists_row (h : Drafted o schedule roster rooms v) {m : Meeting} (hm : m ∈ v.meetings) :
    ∃ row ∈ schedule.records o.meetingsHeader, isDated o.sheets.meetings row = .ok true ∧
      ∃ r, (Spec.nested meetingFields).eval row.value = .ok r ∧ Meeting.ofRecord r = m := by
  obtain ⟨dated, records, hdated, hrecords, hmeetings⟩ := h.meetings
  rw [hmeetings] at hm
  obtain ⟨r, hr, rfl⟩ := List.mem_map.mp hm
  obtain ⟨row, hrow, heval⟩ := exists_row_of_mapRows hrecords hr
  obtain ⟨hmem, hdate⟩ := mem_datedRows hdated hrow
  exact ⟨row, hmem, hdate, r, heval, rfl⟩

theorem trim_texts (h : Drafted o schedule roster rooms v) :
    ∀ m ∈ v.meetings, Text.trim m.name = m.name ∧ Text.trim m.rolesText = m.rolesText := by
  intro m hm
  obtain ⟨row, hmem, -, r, heval, rfl⟩ := h.exists_row hm
  have htexts := schedule.records_isRow (P := fun _ => True) trivial (fun _ _ _ _ => trivial)
  obtain ⟨name, hname, -⟩ := name_of_eval trivial (htexts _ row hmem) heval
  obtain ⟨roles, hroles, -⟩ := rolesText_of_eval trivial (htexts _ row hmem) heval
  rw [hname, hroles]
  exact ⟨Text.trim_trim _, Text.trim_trim _⟩

end Drafted

theorem sheets_of_read {w : Workbook} {o : LoadOptions} {v : Visit} (h : read w o = .ok v) :
    ∃ schedule roster rooms, w.sheet o.sheets.meetings = .ok schedule ∧
      w.sheet o.sheets.participants = .ok roster ∧ w.sheet o.sheets.zoomRooms = .ok rooms ∧
      Drafted o schedule roster rooms v ∧ v.IsSound := by
  obtain ⟨schedule, hschedule, h'⟩ := bind_eq_ok.mp h
  obtain ⟨roster, hroster, h'⟩ := bind_eq_ok.mp h'
  obtain ⟨rooms, hrooms, -⟩ := bind_eq_ok.mp h'
  exact ⟨schedule, roster, rooms, hschedule, hroster, hrooms,
    (read_eq_ok hschedule hroster hrooms).mp h⟩

end Visit
end SiteVisit
