import SiteVisit.Text.Csv
import SiteVisit.Text.Separated
import SiteVisit.Visit.Basic

namespace SiteVisit.Visit

open Text.Csv

def meetingColumns : List String :=
  ["date", "time", "start_time", "end_time", "meeting", "location", "zoom_room_option",
    "zoom_room", "team_roles", "individuals", "hide_names"]

def meetingCells (m : Meeting) : List Cell :=
  [.text m.date, .text m.time, ofText? (m.start.map (·.label)), ofText? (m.finish.map (·.label)),
    .text m.name, .text m.location, .text m.zoomOption.name, .text m.zoomRoom,
    .text (Text.commaJoin m.roleLabels), .text (Text.commaJoin (m.individuals.map (·.name))),
    .bool m.hidesNames]

def meetingsTable (v : Visit) : String := table meetingColumns (v.meetings.map meetingCells)

def participantColumns : List String :=
  ["id", "full_name", "title", "email", "staff", "faculty", "team_member_roles"]

def participantCells (p : Participant) : List Cell :=
  [.text p.id, .text p.fullName, .text p.title, .text p.email, .bool p.staff, .bool p.faculty,
    .text (Text.commaJoin p.roles)]

def participantsTable (v : Visit) : String :=
  table participantColumns (v.participants.map participantCells)

end SiteVisit.Visit
