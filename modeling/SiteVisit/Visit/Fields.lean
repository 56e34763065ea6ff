import SiteVisit.Datum.Tagged
import SiteVisit.Mapping.Eval
import SiteVisit.Mapping.Transform
import SiteVisit.Visit.Basic

namespace SiteVisit

open Calendar

namespace Spec

def cell (name : String) : Spec := .column name true

def cellThen (name : String) (f : Transform) : Spec := .pipeline (cell name) [.rowFunction f]

end Spec

namespace Derivation

def fullName : Derivation := fun fields => do
  let joined ← join " " ["prefix", "first_name", "last_name"] fields
  return .text (Text.trim (String.ofList (Text.squeeze ' ' joined.shown.toList)))

def participantId : Derivation := fun fields => do
  return .text (← fieldOf fields "full_name").slug

def zoomIsOneOf (options : List ZoomOption) : Derivation := fun fields => do
  let v ← fieldOf fields "zoom_room_option_type"
  return .bool (options.any fun o => v.isText o.name)

end Derivation

def zoomMarks : List (Matcher × Datum) := [
  (.exactly "Primary Room", .text ZoomOption.primary.name),
  (.exactly "Yes", .text ZoomOption.optional.name),
  (.oneOf ["No", "N/A", ""], .text ZoomOption.none.name)]

def zoomOption : Transform := matchFirst zoomMarks

def teamRolesColumn : String := "Team Roles"

def participantFields (rolesFromColumn : Bool) : List (String × Spec) := [
  ("prefix", .cell "PFX"),
  ("first_name", .cell "First Name"),
  ("last_name", .cell "Last Name"),
  ("title", .cell "Title /Involvement"),
  ("staff", .cellThen "Staff" Transform.mark),
  ("faculty", .cellThen "Faculty" Transform.mark),
  ("email", .cell "Email"),
  ("full_name", .derived Derivation.fullName),
  ("id", .derived Derivation.participantId),
  ("team_member_roles",
    if rolesFromColumn then .cellThen "Team Member" Transform.commaList
    else .rowFunction fun _ => .ok (.list []))]

def meetingFields : List (String × Spec) :=
  [("date", .cell "Date"),
    ("parsed_date", .cellThen "Date" Transform.date),
    ("$time", .cellThen "Time" Transform.timeFields),
    ("meeting_location", .cell "Meeting Location"),
    ("zoom_room_option_type", .cellThen "Zoom Room Option" zoomOption),
    ("should_show_zoom_room", .derived (Derivation.zoomIsOneOf [.primary, .optional])),
    ("is_zoom_room_primary", .derived (Derivation.zoomIsOneOf [.primary])),
    ("zoom_room_name", .pattern { source := "^Zoom Link" } true),
    ("interview_assignments", .cell "Interview Assignments")] ++
  Role.all.map (fun r => (r.key, .cellThen r.label Transform.mark)) ++
  [("individuals", .cellThen "Individuals" Transform.people),
    ("hide_names", .cellThen "Hide Names" Transform.mark),
    ("team_roles_text", .column teamRolesColumn false),
    ("team_roles_markup", .rowFunction (Transform.markupOf teamRolesColumn))]

def zoomRoomFields : List (String × Spec) :=
  [("zoom_room_name", .cell "Zoom Room Name"), ("link", .cell "Link")]

namespace Datum

def timeAt? (v : Datum) (key : String) : Option TimeOfDay :=
  match v.fieldAt key with
  | .time t => some t
  | _ => none

def dateAt? (v : Datum) (key : String) : Option Date :=
  match v.fieldAt key with
  | .date d => some d
  | _ => none

def peopleAt (v : Datum) (key : String) : List Individual :=
  match v.fieldAt key with
  | .individuals people => people
  | _ => []

end Datum

def Participant.ofRecord (v : Datum) : Participant where
  honorific := v.textAt "prefix"
  firstName := v.textAt "first_name"
  lastName := v.textAt "last_name"
  title := v.textAt "title"
  staff := v.flagAt "staff"
  faculty := v.flagAt "faculty"
  email := v.textAt "email"
  fullName := v.textAt "full_name"
  id := v.textAt "id"
  roles := v.textsAt "team_member_roles"

def Participant.record (p : Participant) : Datum :=
  .record
    [("prefix", .text p.honorific), ("first_name", .text p.firstName),
      ("last_name", .text p.lastName), ("title", .text p.title), ("staff", .bool p.staff),
      ("faculty", .bool p.faculty), ("email", .text p.email), ("full_name", .text p.fullName),
      ("id", .text p.id), ("team_member_roles", .ofTexts p.roles)] []

def Meeting.ofRecord (v : Datum) : Meeting where
  name := v.textAt "interview_assignments"
  date := v.textAt "date"
  day := v.dateAt? "parsed_date"
  time := v.textAt "time"
  start := v.timeAt? "start_time"
  finish := v.timeAt? "end_time"
  location := v.textAt "meeting_location"
  zoomOption := .ofName (v.textAt "zoom_room_option_type")
  zoomRoom := v.textAt "zoom_room_name"
  roles := Role.all.filter fun r => v.flagAt r.key
  individuals := v.peopleAt "individuals"
  hidesNames := v.flagAt "hide_names"
  rolesText := v.textAt "team_roles_text"
  rolesMarkup := (v.fieldAt "team_roles_markup").text?

namespace Datum

def ofOption {α : Type} (f : α → Datum) : Option α → Datum
  | none => .null
  | some a => f a

end Datum

def Meeting.record (m : Meeting) : Datum :=
  .record
    ([("date", .text m.date), ("parsed_date", .ofOption .date m.day), ("time", .text m.time),
        ("start_time", .ofOption .time m.start), ("end_time", .ofOption .time m.finish),
        ("meeting_location", .text m.location),
        ("zoom_room_option_type", .text m.zoomOption.name),
        ("should_show_zoom_room", .bool m.showsZoom),
        ("is_zoom_room_primary", .bool m.zoomIsPrimary), ("zoom_room_name", .text m.zoomRoom),
        ("interview_assignments", .text m.name)] ++
      Role.all.map (fun r => (r.key, .bool (m.roles.contains r))) ++
      [("individuals", .individuals m.individuals), ("hide_names", .bool m.hidesNames),
        ("team_roles_text", .text m.rolesText),
        ("team_roles_markup", .ofOption .text m.rolesMarkup)]) []

def ZoomRoom.record (z : ZoomRoom) : Datum :=
  .record [("zoom_room_name", .text z.name), ("link", .text z.link)] []

def ZoomRoom.ofRecord (v : Datum) : ZoomRoom := ⟨v.textAt "zoom_room_name", v.textAt "link"⟩

end SiteVisit
