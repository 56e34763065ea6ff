import SiteVisit.Store.RoleText

namespace SiteVisit

namespace Store

structure RoomRow where
  id : Nat
  name : String
  link : String
  deriving DecidableEq, Repr

structure MeetingRow where
  id : Nat
  date : String
  time : String
  /-- Moments of universal time, as texts. -/
  start : Option String
  finish : Option String
  name : String
  location : String
  room : Option Nat
  roles : Option String
  deriving DecidableEq, Repr

structure PersonRow where
  id : Nat
  slug : String
  name : String
  title : String
  isTeamMember : Bool
  deriving DecidableEq, Repr

structure AttendanceRow where
  id : Nat
  meeting : Nat
  person : Nat
  deriving DecidableEq, Repr

end Store

structure Store where
  rooms : List Store.RoomRow := []
  meetings : List Store.MeetingRow := []
  people : List Store.PersonRow := []
  attendance : List Store.AttendanceRow := []
  deriving DecidableEq, Repr

def Store.counts (s : Store) : List (String × Nat) :=
  [("zoom_rooms", s.rooms.length), ("meetings", s.meetings.length),
    ("participants", s.people.length), ("meeting_participation", s.attendance.length)]

end SiteVisit
