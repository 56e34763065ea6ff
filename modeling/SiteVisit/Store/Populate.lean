import SiteVisit.Markup.Run
import SiteVisit.Store.RoleText
import SiteVisit.Store.Session
import SiteVisit.Store.Stamp
import SiteVisit.Visit.Attendance

namespace SiteVisit.Store

open Calendar (Timezones)

def plainRoles (m : Meeting) : Option (List RoleRun) :=
  if m.rolesText.isEmpty then none else some [{ text := m.rolesText }]

def roleRuns (m : Meeting) : Reporting (Option (List RoleRun)) := do
  match m.rolesMarkup.filter (!·.isEmpty) with
  | none => return plainRoles m
  | some markup =>
    match Markup.readRuns markup with
    | .ok runs => return some (runs.map fun r => { text := r.text, style := some r.style })
    | .error p =>
      Reporting.warn ("team roles for " ++ Text.quoted m.name ++ " stored unformatted: " ++ p.message)
      return plainRoles m

def roleText (m : Meeting) : Reporting (Option String) := do
  return (← roleRuns m).map RoleRun.encode

abbrev Numbers := List (String × Nat)

def roomRow (z : ZoomRoom) (id : Nat) : RoomRow := { id, name := z.name, link := z.link }

def personRow (p : Participant) (id : Nat) : PersonRow :=
  { id, slug := p.id, name := p.fullName, title := p.title, isTeamMember := p.isTeamMember }

def attendanceRow (pair : Nat × Nat) (id : Nat) : AttendanceRow :=
  { id, meeting := pair.1, person := pair.2 }

def writeEach {α ρ : Type} (t : Table ρ) (row : α → Nat → ρ) : List α → Writing (List Nat)
  | [] => pure []
  | a :: rest => do
    let id ← Writing.enter t (row a)
    return id :: (← writeEach t row rest)

def roomNumber (rooms : Numbers) (m : Meeting) : Except Fault (Option Nat) :=
  if m.zoomRoom.isEmpty then .ok none
  else
    match rooms.lookup m.zoomRoom with
    | some id => .ok (some id)
    | none => .error (.problem (.missingZoomRoom m.zoomRoom m.name))

def meetingRow (zones : Timezones) (rooms : Numbers) (zone : String) (m : Meeting) :
    Reporting (Nat → MeetingRow) := do
  let room ← Reporting.ofExcept (roomNumber rooms m)
  let start ← Reporting.ofExcept (Stamp.ofLocal m.day m.start zone zones)
  let finish ← Reporting.ofExcept (Stamp.ofLocal m.day m.finish zone zones)
  let roles ← roleText m
  return fun id => {
    id, date := m.date, time := m.time, start, finish, name := m.name, location := m.location
    room, roles }

def personNumber (people : Numbers) (p : Participant) : Except Fault Nat :=
  match people.lookup p.id with
  | some id => .ok id
  | none => .error (.defect (.missingKey p.id))

def writeMeetings (zones : Timezones) (v : Visit) (rooms people : Numbers) (zone : String) :
    List Meeting → Writing (List (Nat × Nat))
  | [] => pure []
  | m :: rest => do
    let row ← Writing.reporting (meetingRow zones rooms zone m)
    let id ← Writing.enter .meetings row
    let attendees ← Writing.reporting (v.attendees m)
    let persons ← Writing.ofExcept (attendees.mapM (personNumber people))
    return persons.map (id, ·) ++ (← writeMeetings zones v rooms people zone rest)

def fill (v : Visit) (zone : String) (zones : Timezones) : Writing (List (Nat × Nat)) := do
  let rooms ← writeEach .rooms roomRow v.zoomRooms
  let people ← writeEach .people personRow v.participants
  let attendance ← writeMeetings zones v ((v.zoomRooms.map (·.name)).zip rooms)
    ((v.participants.map (·.id)).zip people) zone v.meetings
  let _ ← writeEach .attendance attendanceRow attendance
  return attendance

def report (path : String) (counts : List (String × Nat)) : String :=
  "Populated " ++ path ++ ": " ++
    ", ".intercalate (counts.map fun (table, n) => table ++ "=" ++ Text.decimal n)

def write (path : String) (v : Visit) (zone : String) (zones : Timezones) :
    Writing (List (String × Nat)) := do
  definitions.forM Writing.define
  let attendance ← fill v zone zones
  Writing.commit
  let counts := [("zoom_rooms", v.zoomRooms.length), ("meetings", v.meetings.length),
    ("participants", v.participants.length), ("meeting_participation", attendance.length)]
  Writing.reporting (Reporting.info (report path counts))
  return counts

/-- Populates a store: the store if that succeeds, what was reported, and what is stored
afterwards in any case. -/
def populateOver (earlier : Store) (path : String) (v : Visit) (zone : String)
    (messages : List Message) (zones : Timezones := Timezones.known) :
    Except Fault Store × List Message × Store :=
  let (result, s) := (write path v zone zones).outcome { saved := earlier, messages }
  (result.map fun _ => s.saved, s.messages, s.saved)

def populate (path : String) (v : Visit) (zone : String)
    (zones : Timezones := Timezones.known) : Reporting Store :=
  ExceptT.mk (modifyGet fun messages =>
    let (result, messages, _) := populateOver {} path v zone messages zones
    (result, messages))

end SiteVisit.Store
