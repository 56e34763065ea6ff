import SiteVisit.Proofs.Store.Rows
import SiteVisit.Proofs.Store.Stamps
import SiteVisit.Proofs.Visit.Guests

namespace SiteVisit.Store

open Calendar (Timezones)
open Reporting (Succeeds)
open Writing (KeepsSaved)

variable {zones : Timezones} {zone : String} {v : Visit} {rooms people : Numbers}

def keptRuns (m : Meeting) : Option (List RoleRun) :=
  match m.rolesMarkup.filter (!·.isEmpty) with
  | none => plainRoles m
  | some markup =>
    match Markup.readRuns markup with
    | .ok runs => some (runs.map fun r => { text := r.text, style := some r.style })
    | .error _ => plainRoles m

def roleReports (m : Meeting) : List Message :=
  match m.rolesMarkup.filter (!·.isEmpty) with
  | none => []
  | some markup =>
    match Markup.readRuns markup with
    | .ok _ => []
    | .error p =>
      [⟨.warn, "team roles for " ++ Text.quoted m.name ++ " stored unformatted: " ++ p.message⟩]

theorem roleText_outcome (m : Meeting) (messages : List Message) :
    (roleText m).outcome messages =
      (.ok ((keptRuns m).map RoleRun.encode), messages ++ roleReports m) := by
  have hruns : (roleRuns m).outcome messages = (.ok (keptRuns m), messages ++ roleReports m) := by
    cases hmarkup : m.rolesMarkup.filter (!·.isEmpty) with
    | none =>
      simp only [roleRuns, keptRuns, roleReports, hmarkup, Reporting.outcome_pure, List.append_nil]
    | some markup =>
      cases hread : Markup.readRuns markup with
      | ok runs =>
        simp only [roleRuns, keptRuns, roleReports, hmarkup, hread, Reporting.outcome_pure,
          List.append_nil]
      | error p =>
        simp only [roleRuns, keptRuns, roleReports, hmarkup, hread, Reporting.outcome_bind]
        rfl
  rw [roleText, Reporting.outcome_bind, hruns]
  rfl

structure IsRowOf (zones : Timezones) (zone : String) (rooms : Numbers) (m : Meeting)
    (row : MeetingRow) : Prop where
  name : row.name = m.name
  date : row.date = m.date
  time : row.time = m.time
  location : row.location = m.location
  start : Stamp.ofLocal m.day m.start zone zones = .ok row.start
  finish : Stamp.ofLocal m.day m.finish zone zones = .ok row.finish
  room : roomNumber rooms m = .ok row.room
  roles : row.roles = (keptRuns m).map RoleRun.encode

structure Storable (zones : Timezones) (zone : String) (rooms : Numbers) (m : Meeting) : Prop where
  room : ∃ room, roomNumber rooms m = .ok room
  start : ∃ text, Stamp.ofLocal m.day m.start zone zones = .ok text
  finish : ∃ text, Stamp.ofLocal m.day m.finish zone zones = .ok text

theorem roleText_succeeds (m : Meeting) : Succeeds (roleText m) := fun messages =>
  ⟨_, _, roleText_outcome m messages, trivial⟩

theorem meetingRow_ok {m : Meeting} {messages messages' : List Message} {row : Nat → MeetingRow}
    (h : (meetingRow zones rooms zone m).outcome messages = (.ok row, messages')) (id : Nat) :
    (row id).id = id ∧ IsRowOf zones zone rooms m (row id) := by
  simp only [meetingRow, Reporting.outcome_bind, Reporting.outcome_ofExcept] at h
  cases hroom : roomNumber rooms m with
  | error f => simp [hroom] at h
  | ok room =>
    cases hstart : Stamp.ofLocal m.day m.start zone zones with
    | error f => simp [hroom, hstart] at h
    | ok start =>
      cases hfinish : Stamp.ofLocal m.day m.finish zone zones with
      | error f => simp [hroom, hstart, hfinish] at h
      | ok finish =>
        simp only [hroom, hstart, hfinish, roleText_outcome, Reporting.outcome_pure, Prod.mk.injEq,
          Except.ok.injEq] at h
        obtain ⟨rfl, -⟩ := h
        exact ⟨rfl, rfl, rfl, rfl, rfl, hstart, hfinish, hroom, rfl⟩

theorem meetingRow_succeeds {m : Meeting} (h : Storable zones zone rooms m) :
    Succeeds (meetingRow zones rooms zone m) := by
  obtain ⟨⟨room, hroom⟩, ⟨start, hstart⟩, ⟨finish, hfinish⟩⟩ := h
  refine Succeeds.bind (.ofExcept hroom trivial) fun _ => ?_
  refine Succeeds.bind (.ofExcept hstart trivial) fun _ => ?_
  refine Succeeds.bind (.ofExcept hfinish trivial) fun _ => ?_
  exact (roleText_succeeds m).bind fun _ => .pure _

def pairsFrom (v : Visit) (number : Participant → Nat) : Nat → List Meeting → List (Nat × Nat)
  | _, [] => []
  | k, m :: rest =>
    (v.guests m).map (fun p => (k, number p)) ++ pairsFrom v number (k + 1) rest

section Meetings

variable {number : Participant → Nat}

theorem mapM_personNumber (hpeople : ∀ p ∈ v.participants, personNumber people p = .ok (number p))
    (m : Meeting) : (v.guests m).mapM (personNumber people) = .ok ((v.guests m).map number) := by
  rw [mapM_eq_ok, List.forall₂_map_right_iff, List.forall₂_same]
  exact fun p hp => hpeople p (Visit.mem_guests hp)

theorem attendees_yields (hids : (v.participants.map (·.id)).Nodup) (m : Meeting) :
    (v.attendees m).Yields fun found => found = v.guests m :=
  fun messages => ⟨_, _, Visit.attendees_outcome hids m messages, rfl⟩

theorem writeMeetings_ok (hids : (v.participants.map (·.id)).Nodup)
    (hpeople : ∀ p ∈ v.participants, personNumber people p = .ok (number p))
    {meetings : List Meeting} {s s' : Session} {pairs : List (Nat × Nat)}
    (h : (writeMeetings zones v rooms people zone meetings).outcome s = (.ok pairs, s')) :
    ∃ rows, s.AddsTo .meetings rows s' ∧
      List.Forall₂ (IsRowOf zones zone rooms) meetings rows ∧
      rows.map (·.id) = List.range' (Table.meetings.next s.tables) meetings.length ∧
      pairs = pairsFrom v number (Table.meetings.next s.tables) meetings := by
  -- Each row takes the next number of the session that the rows before it leave.
  induction meetings generalizing s pairs with
  | nil =>
    cases h
    exact ⟨[], .nil, .nil, rfl, rfl⟩
  | cons m rest ih =>
    obtain ⟨row, s₁, hrow, h⟩ := Writing.bind_ok.mp h
    obtain ⟨id, s₂, henter, h⟩ := Writing.bind_ok.mp h
    obtain ⟨found, s₃, hfound, h⟩ := Writing.bind_ok.mp h
    obtain ⟨persons, s₄, hpersons, h⟩ := Writing.bind_ok.mp h
    obtain ⟨others, s₅, hothers, h⟩ := Writing.bind_ok.mp h
    cases h
    obtain ⟨messages, hmade, rfl⟩ := Writing.reporting_ok.mp hrow
    obtain ⟨messages', hguests, rfl⟩ := Writing.reporting_ok.mp hfound
    rw [Visit.attendees_outcome hids] at hguests
    cases hguests
    rw [Writing.outcome_ofExcept, mapM_personNumber hpeople] at hpersons
    cases hpersons
    obtain ⟨-, rfl, hfirst⟩ := Writing.enter_ok henter
    obtain ⟨hnumber, hisRow⟩ := meetingRow_ok hmade (Table.meetings.next s.tables)
    obtain ⟨rows, hadds, hrows, hnumbers, rfl⟩ := ih hothers
    have hnext : Table.meetings.next s₂.tables = Table.meetings.next s.tables + 1 :=
      hfirst.next hnumber
    refine ⟨_ :: rows, hfirst.trans hadds, .cons hisRow hrows, ?_, ?_⟩
    · rw [List.map_cons, hnumbers, List.length_cons, List.range'_succ]
      exact congrArg₂ _ hnumber (by rw [← hnext]; rfl)
    · rw [pairsFrom, ← hnext, List.map_map]
      rfl

theorem writeMeetings_yields (hids : (v.participants.map (·.id)).Nodup)
    (hpeople : ∀ p ∈ v.participants, personNumber people p = .ok (number p))
    {meetings : List Meeting} (h : ∀ m ∈ meetings, Storable zones zone rooms m) :
    (writeMeetings zones v rooms people zone meetings).Yields fun _ => True := by
  induction meetings with
  | nil => exact .pure trivial
  | cons m rest ih =>
    obtain ⟨hm, hrest⟩ := List.forall_mem_cons.mp h
    apply Writing.Yields.bind (.reporting (meetingRow_succeeds hm))
    intro row _
    have henter : (Writing.enter .meetings row).Yields fun _ => True := by
      intro s
      obtain ⟨s', henter, -⟩ := Writing.enter_succeeds .meetings row s fun _ _ => rfl
      exact ⟨_, s', henter, trivial⟩
    apply henter.bind
    intro id _
    apply Writing.Yields.bind (.reporting (attendees_yields hids m))
    intro found hfound
    rw [hfound]
    refine Writing.Yields.bind (P := fun _ => True)
      (.ofExcept (mapM_personNumber hpeople m) trivial) fun _ _ => ?_
    exact (ih hrest).bind fun _ _ => .pure trivial

theorem keepsSaved_writeMeetings (meetings : List Meeting) :
    KeepsSaved (writeMeetings zones v rooms people zone meetings) := by
  induction meetings with
  | nil => exact .pure []
  | cons m rest ih =>
    refine (KeepsSaved.reporting _).bind fun row => (KeepsSaved.enter _ row).bind fun id => ?_
    refine (KeepsSaved.reporting _).bind fun found => (KeepsSaved.ofExcept _).bind fun persons => ?_
    exact ih.bind fun _ => .pure _

end Meetings

def roomNumbers (v : Visit) : Numbers :=
  (v.zoomRooms.map (·.name)).zip (List.range' 1 v.zoomRooms.length)

def personNumbers (v : Visit) : Numbers :=
  (v.participants.map (·.id)).zip (List.range' 1 v.participants.length)

def personId (v : Visit) (p : Participant) : Nat := 1 + v.participants.idxOf p

theorem personNumber_eq (hids : (v.participants.map (·.id)).Nodup) :
    ∀ p ∈ v.participants, personNumber (personNumbers v) p = .ok (personId v p) := by
  intro p hp
  rw [personNumber, personNumbers, lookup_numbers hids 1 hp]
  rfl

/-- What a store holds after it has been populated with a visit. -/
structure Holds (zones : Timezones) (zone : String) (v : Visit) (s : Store) : Prop where
  rooms : s.rooms = rowsFrom roomRow 1 v.zoomRooms
  people : s.people = rowsFrom personRow 1 v.participants
  meetings : List.Forall₂ (IsRowOf zones zone (roomNumbers v)) v.meetings s.meetings
  numbers : s.meetings.map (·.id) = List.range' 1 v.meetings.length
  attendance : s.attendance = rowsFrom attendanceRow 1 (pairsFrom v (personId v) 1 v.meetings)

theorem Holds.counts {s : Store} (h : Holds zones zone v s) :
    s.counts = [("zoom_rooms", v.zoomRooms.length), ("meetings", v.meetings.length),
      ("participants", v.participants.length),
      ("meeting_participation", (pairsFrom v (personId v) 1 v.meetings).length)] := by
  simp only [Store.counts, h.rooms, h.people, h.attendance, length_rowsFrom, h.meetings.length_eq]

theorem Holds.pairwise_id {s : Store} (h : Holds zones zone v s) :
    s.meetings.Pairwise (·.id < ·.id) := by
  rw [← List.pairwise_map, h.numbers]
  exact List.pairwise_lt_range' _ Nat.one_pos

section Fill

variable {s s' : Session}

theorem fill_ok (hids : (v.participants.map (·.id)).Nodup) (hempty : s.tables = {})
    {pairs : List (Nat × Nat)} (h : (fill v zone zones).outcome s = (.ok pairs, s')) :
    Holds zones zone v s'.tables ∧ pairs = pairsFrom v (personId v) 1 v.meetings := by
  obtain ⟨rooms, s₁, hrooms, h⟩ := Writing.bind_ok.mp h
  obtain ⟨people, s₂, hpeople, h⟩ := Writing.bind_ok.mp h
  obtain ⟨pairs, s₃, hmeetings, h⟩ := Writing.bind_ok.mp h
  obtain ⟨_, s₄, hattendance, h⟩ := Writing.bind_ok.mp h
  cases h
  obtain ⟨rfl, h₁⟩ := writeEach_empty_ok (fun _ _ => rfl) (by rw [hempty]; rfl) hrooms
  obtain ⟨rfl, h₂⟩ := writeEach_empty_ok (fun _ _ => rfl) (by rw [h₁, hempty]; rfl) hpeople
  obtain ⟨rows, h₃, hrows, hnumbers, rfl⟩ :=
    writeMeetings_ok hids (personNumber_eq hids) hmeetings
  rw [Table.next_of_empty (by rw [h₂, h₁, hempty]; rfl)] at hnumbers hattendance ⊢
  obtain ⟨-, h₄⟩ :=
    writeEach_empty_ok (fun _ _ => rfl) (by rw [h₃, h₂, h₁, hempty]; rfl) hattendance
  rw [h₄, h₃, h₂, h₁, hempty]
  exact ⟨⟨rfl, rfl, hrows, hnumbers, rfl⟩, rfl⟩

theorem le_of_mem_pairsFrom {number : Participant → Nat} {k : Nat} {meetings : List Meeting}
    {pair : Nat × Nat} (h : pair ∈ pairsFrom v number k meetings) : k ≤ pair.1 := by
  induction meetings generalizing k with
  | nil => cases h
  | cons m rest ih =>
    rcases List.mem_append.mp h with h | h
    · obtain ⟨p, -, rfl⟩ := List.mem_map.mp h
      exact Nat.le_refl k
    · exact Nat.le_of_succ_le (ih h)

theorem nodup_pairsFrom (hids : (v.participants.map (·.id)).Nodup) (k : Nat)
    (meetings : List Meeting) : (pairsFrom v (personId v) k meetings).Nodup := by
  induction meetings generalizing k with
  | nil => exact List.nodup_nil
  | cons m rest ih =>
    refine List.nodup_append.mpr ⟨?_, ih (k + 1), ?_⟩
    · refine List.Nodup.map_on (fun p hp q hq heq => ?_) (Visit.nodup_ids_guests hids m).of_map
      have hidx : v.participants.idxOf p = v.participants.idxOf q := by
        simp only [personId, Prod.mk.injEq] at heq
        omega
      exact (List.idxOf_inj (Visit.mem_guests hp)).mp hidx
    · intro pair hpair other hother heq
      obtain ⟨p, -, rfl⟩ := List.mem_map.mp hpair
      have hge := le_of_mem_pairsFrom hother
      rw [← heq] at hge
      exact Nat.not_succ_le_self k hge

theorem writeEach_empty_succeeds {α β ρ : Type} (t : Table ρ) (row : α → Nat → ρ) {key : α → β}
    (hclash : ∀ a b, key a ≠ key b → ∀ id id', t.clash (row a id) (row b id') = false)
    {items : List α} (hkeys : (items.map key).Nodup) (hempty : t.rows s.tables = []) :
    ∃ ids s', (writeEach t row items).outcome s = (.ok ids, s') := by
  refine writeEach_succeeds (fun _ _ _ other hother => ?_) ?_
  · rw [hempty] at hother
    cases hother
  · exact (List.pairwise_map.mp hkeys).imp fun hne id id' => hclash _ _ (Ne.symm hne) id' id

theorem fill_succeeds (hids : (v.participants.map (·.id)).Nodup)
    (hrooms : (v.zoomRooms.map (·.name)).Nodup)
    (h : ∀ m ∈ v.meetings, Storable zones zone (roomNumbers v) m) (hempty : s.tables = {}) :
    ∃ pairs s', (fill v zone zones).outcome s = (.ok pairs, s') := by
  obtain ⟨ids, s₁, hroomIds⟩ := writeEach_empty_succeeds .rooms roomRow
    (fun _ _ hne _ _ => beq_false_of_ne hne) hrooms (by rw [hempty]; rfl)
  obtain ⟨rfl, h₁⟩ := writeEach_empty_ok (fun _ _ => rfl) (by rw [hempty]; rfl) hroomIds
  obtain ⟨ids, s₂, hpersonIds⟩ := writeEach_empty_succeeds .people personRow
    (fun _ _ hne _ _ => beq_false_of_ne hne) hids (by rw [h₁, hempty]; rfl)
  obtain ⟨rfl, h₂⟩ := writeEach_empty_ok (fun _ _ => rfl) (by rw [h₁, hempty]; rfl) hpersonIds
  obtain ⟨pairs, s₃, hmeetings, -⟩ := writeMeetings_yields hids (personNumber_eq hids) h s₂
  obtain ⟨rows, h₃, -, -, rfl⟩ := writeMeetings_ok hids (personNumber_eq hids) hmeetings
  have hpairs : ((pairsFrom v (personId v) (Table.meetings.next s₂.tables) v.meetings).map
      id).Nodup := by
    rw [List.map_id]
    exact nodup_pairsFrom hids _ _
  have hdiffer (pair other : Nat × Nat) (hne : id pair ≠ id other) (a b : Nat) :
      Table.attendance.clash (attendanceRow pair a) (attendanceRow other b) = false := by
    simpa [Table.attendance, attendanceRow, Prod.ext_iff] using hne
  obtain ⟨ids, s₄, hattendance⟩ := writeEach_empty_succeeds .attendance attendanceRow hdiffer hpairs
    (by rw [h₃, h₂, h₁, hempty]; rfl)
  rw [roomNumbers, personNumbers] at hmeetings
  refine ⟨pairsFrom v (personId v) (Table.meetings.next s₂.tables) v.meetings, s₄, ?_⟩
  simp only [fill, Writing.outcome_bind, hroomIds, hpersonIds, hmeetings, hattendance]
  rfl

theorem keepsSaved_fill (v : Visit) (zone : String) (zones : Timezones) :
    KeepsSaved (fill v zone zones) :=
  (keepsSaved_writeEach _).bind fun _ => (keepsSaved_writeEach _).bind fun _ =>
    (keepsSaved_writeMeetings _).bind fun _ => (keepsSaved_writeEach _).bind fun _ => .pure _

end Fill

section Write

variable {earlier : Store} {path : String} {messages : List Message}

theorem outcome_write :
    (write path v zone zones).outcome { saved := earlier, messages } =
      match (fill v zone zones).outcome { messages } with
      | (.ok pairs, s) =>
        let counts := [("zoom_rooms", v.zoomRooms.length), ("meetings", v.meetings.length),
          ("participants", v.participants.length), ("meeting_participation", pairs.length)]
        (.ok counts, {
          saved := s.tables, messages := s.messages ++ [⟨.info, report path counts⟩] })
      | (.error e, s) => (.error e, s) := by
  rw [write, Writing.outcome_bind, outcome_definitions rfl]
  simp only [Writing.outcome_bind]
  rcases (fill v zone zones).outcome { messages } with ⟨_ | pairs, s⟩ <;> rfl

theorem write_ok (hids : (v.participants.map (·.id)).Nodup) {counts : List (String × Nat)}
    {s : Session} (h : (write path v zone zones).outcome { saved := earlier, messages } =
      (.ok counts, s)) : Holds zones zone v s.saved ∧ counts = s.saved.counts := by
  rw [outcome_write] at h
  rcases hfill : (fill v zone zones).outcome { messages } with ⟨_ | pairs, s'⟩
  · rw [hfill] at h
    cases h
  · rw [hfill] at h
    cases h
    obtain ⟨hholds, rfl⟩ := fill_ok hids rfl hfill
    exact ⟨hholds, hholds.counts.symm⟩

/-- Faults come before anything is committed, and find the tables empty. -/
theorem write_error {e : Fault} {s : Session}
    (h : (write path v zone zones).outcome { saved := earlier, messages } = (.error e, s)) :
    s.saved = {} := by
  rw [outcome_write] at h
  have hsaved := keepsSaved_fill v zone zones { messages }
  rcases hfill : (fill v zone zones).outcome { messages } with ⟨_ | pairs, s'⟩
  · rw [hfill] at h hsaved
    cases h
    exact hsaved
  · rw [hfill] at h
    cases h

theorem write_succeeds (path : String) (hids : (v.participants.map (·.id)).Nodup)
    (hrooms : (v.zoomRooms.map (·.name)).Nodup)
    (h : ∀ m ∈ v.meetings, Storable zones zone (roomNumbers v) m) :
    ∃ counts s, (write path v zone zones).outcome { saved := earlier, messages } =
      (.ok counts, s) := by
  obtain ⟨pairs, s, hfill⟩ := fill_succeeds (s := { messages }) hids hrooms h rfl
  rw [outcome_write, hfill]
  exact ⟨_, _, rfl⟩

end Write

end SiteVisit.Store
