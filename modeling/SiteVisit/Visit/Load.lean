import SiteVisit.Message
import SiteVisit.Settings.Basic
import SiteVisit.Visit.Assignment
import SiteVisit.Visit.Fields
import SiteVisit.Workbook.Records

namespace SiteVisit

def isDated (sheet : String) (row : NumberedRow) : Except Fault Bool := do
  let date ← locating { field := some "Date", row := row.number, sheet := some sheet }
    (selectHeader true "Date" row.value)
  return !date.isText ""

def datedRows (sheet : String) : List NumberedRow → Except Fault (List NumberedRow)
  | [] => .ok []
  | row :: rest => do
    let dated ← isDated sheet row
    let others ← datedRows sheet rest
    return if dated then row :: others else others

def checkZoomRooms (meetings : List Meeting) (hasRoom : String → Bool) : Except Fault Unit :=
  meetings.forM fun m =>
    if (m.showsZoom || m.zoomRoom != "") && !hasRoom m.zoomRoom then
      .error (.problem (.missingZoomRoom m.zoomRoom m.name))
    else .ok ()

def readParticipants (rows : List NumberedRow) (rolesFromColumn : Bool) (sheet : String) :
    Except Fault (List Participant) := do
  let records ← mapRows (.nested (participantFields rolesFromColumn)) (some sheet) rows
  let participants := records.map Participant.ofRecord
  let _ ← index (·.id) Datum.text "participant list" participants
  return participants

def readMeetings (rows : List NumberedRow) (sheet : String) : Except Fault (List Meeting) := do
  let dated ← datedRows sheet rows
  let records ← mapRows (.nested meetingFields) (some sheet) dated
  return records.map Meeting.ofRecord

def readZoomRooms (rows : List NumberedRow) (sheet : String) : Except Fault (List ZoomRoom) := do
  let records ← mapRows (.nested zoomRoomFields) (some sheet) rows
  let rooms := records.map ZoomRoom.ofRecord
  let _ ← index (·.name) Datum.text "zoom rooms" rooms
  return rooms

def withRoles (source : RoleSource) (schedule : Sheet) (participants : List Participant) :
    Except Fault (List Participant) :=
  match source with
  | .participantsTable => .ok participants
  | .meetingsTable nameRow headerRow =>
    match (assignRoles schedule.allLines nameRow headerRow schedule.name).run.run participants with
    | (.ok _, participants) => .ok participants
    | (.error f, _) => .error f

namespace Visit

def read (workbook : Workbook) (options : LoadOptions) : Except Fault Visit := do
  let sheets := options.sheets
  let schedule ← workbook.sheet sheets.meetings
  let roster ← workbook.sheet sheets.participants
  let rooms ← workbook.sheet sheets.zoomRooms
  let participants ←
    readParticipants (roster.records 0) options.roleSource.fromColumn sheets.participants
  let meetings ← readMeetings (schedule.records options.meetingsHeader) sheets.meetings
  let zoomRooms ← readZoomRooms (rooms.records 0) sheets.zoomRooms
  let participants ← withRoles options.roleSource schedule participants
  checkRoles participants
  checkZoomRooms meetings fun name => zoomRooms.any (·.name == name)
  return { meetings, participants, zoomRooms }

def summary (v : Visit) : String :=
  "Loaded " ++ Text.decimal v.meetings.length ++ " meetings, " ++
    Text.decimal v.participants.length ++ " participants (" ++
    Text.decimal v.teamMembers.length ++ " team members), " ++
    Text.decimal v.zoomRooms.length ++ " zoom rooms"

def load (workbook : Workbook) (options : LoadOptions) : Reporting Visit := do
  let v ← Reporting.ofExcept (read workbook options)
  Reporting.info v.summary
  return v

end Visit
end SiteVisit
