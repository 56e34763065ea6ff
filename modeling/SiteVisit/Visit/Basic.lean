import SiteVisit.Calendar.Date
import SiteVisit.Calendar.TimeOfDay
import SiteVisit.Datum
import SiteVisit.Visit.Role

namespace SiteVisit

open Calendar

inductive ZoomOption
  | none : ZoomOption
  | optional : ZoomOption
  | primary : ZoomOption
  deriving DecidableEq, Repr

def ZoomOption.name : ZoomOption → String
  | .none => "none"
  | .optional => "optional"
  | .primary => "primary"

def ZoomOption.ofName (name : String) : ZoomOption :=
  if name = ZoomOption.primary.name then .primary
  else if name = ZoomOption.optional.name then .optional
  else .none

structure Meeting where
  name : String
  /-- The label of the day, and the day itself if the label names one. -/
  date : String
  day : Option Date := none
  /-- The label of the time, and the times that it names. -/
  time : String
  start : Option TimeOfDay := none
  finish : Option TimeOfDay := none
  location : String
  zoomOption : ZoomOption := .none
  zoomRoom : String
  /-- The roles that the meeting calls for, in their order. -/
  roles : List Role := []
  individuals : List Individual := []
  hidesNames : Bool := false
  rolesText : String := ""
  rolesMarkup : Option String := none
  deriving DecidableEq, Repr

structure Participant where
  title : String := ""
  firstName : String := ""
  lastName : String
  /-- What stands in front of the name. -/
  honorific : String := ""
  staff : Bool := false
  faculty : Bool := false
  email : String := ""
  fullName : String
  id : String
  /-- Labels of the roles on the team. -/
  roles : List String := []
  deriving DecidableEq, Repr

structure ZoomRoom where
  name : String
  link : String
  deriving DecidableEq, Repr

structure Visit where
  meetings : List Meeting := []
  participants : List Participant := []
  zoomRooms : List ZoomRoom := []
  deriving DecidableEq, Repr

namespace Meeting

def showsZoom (m : Meeting) : Bool := m.zoomOption != .none

def zoomIsPrimary (m : Meeting) : Bool := m.zoomOption == .primary

def roleLabels (m : Meeting) : List String := m.roles.map Role.label

def hasRole (m : Meeting) (label : String) : Bool := m.roles.any (·.label == label)

def includes (m : Meeting) (p : Participant) : Bool := p.roles.any m.hasRole

end Meeting

def Participant.isTeamMember (p : Participant) : Bool := !p.roles.isEmpty

def ZoomRoom.hasLink (z : ZoomRoom) : Bool := !(Text.trim z.link).isEmpty

namespace Visit

def teamMembers (v : Visit) : List Participant := v.participants.filter (·.isTeamMember)

def participant? (v : Visit) (id : String) : Option Participant :=
  v.participants.find? (·.id == id)

def room? (v : Visit) (name : String) : Option ZoomRoom :=
  v.zoomRooms.reverse.find? (·.name == name)

end Visit
end SiteVisit
