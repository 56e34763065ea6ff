import SiteVisit.Store.Basic
import SiteVisit.Store.Stamp
import SiteVisit.Text.Wildcard

namespace SiteVisit.Store

open Calendar

def current (s : Store) (now : Moment) : Except Fault (List MeetingRow) := do
  let t ← Stamp.ofMoment now
  let found := s.meetings.filter fun m =>
    match m.start, m.finish with
    | some start, some finish => start ≤ t && t ≤ finish
    | _, _ => false
  return found.mergeSort fun a b => a.start.getD "" ≤ b.start.getD ""

def earliest : List String → Option String
  | [] => none
  | t :: rest => some (rest.foldl (fun a b => if b < a then b else a) t)

def upcoming (s : Store) (now : Moment) : Except Fault (List MeetingRow) := do
  let t ← Stamp.ofMoment now
  match earliest ((s.meetings.filterMap (·.start)).filter (t < ·)) with
  | none => return []
  | some next => return s.meetings.filter fun m => m.start == some next

/-- The meetings in whose name or place a term is found; the term may have wildcards. -/
def search (s : Store) (term : String) : List MeetingRow :=
  let pattern := "%" ++ Text.trim term ++ "%"
  s.meetings.filter fun m => Text.isLike pattern m.name || Text.isLike pattern m.location

def longestPattern : Nat := 50000

/-- What the engine answers to a search. It looks at the pattern with the first meeting, and refuses
one that is too long. -/
def searchMeetings (s : Store) (term : String) : Except Fault (List MeetingRow) :=
  if longestPattern < ("%" ++ Text.trim term ++ "%").utf8ByteSize && !s.meetings.isEmpty then
    .error (.defect (.foreign "OperationalError" "LIKE or GLOB pattern too complex"))
  else .ok (s.search term)

structure Detail where
  meeting : MeetingRow
  teamMembers : List PersonRow
  representatives : List PersonRow
  room : Option RoomRow
  deriving DecidableEq, Repr

def Detail.roleRuns (d : Detail) : List RoleRun :=
  ((d.meeting.roles.bind RoleRun.decode?)).getD []

def peopleAt (s : Store) (meeting : Nat) : List PersonRow :=
  (s.attendance.filter (·.meeting == meeting)).filterMap fun a =>
    s.people.find? (·.id == a.person)

def detailOf (s : Store) (m : MeetingRow) : Detail where
  meeting := m
  teamMembers := (s.peopleAt m.id).filter (·.isTeamMember)
  representatives := (s.peopleAt m.id).filter (!·.isTeamMember)
  room := m.room.bind fun id => s.rooms.find? (·.id == id)

def isRowNumber (n : Int) : Bool := -0x8000000000000000 ≤ n && n < 0x8000000000000000

def detail? (s : Store) (id : Int) : Except Fault (Option Detail) :=
  if isRowNumber id then .ok ((s.meetings.find? fun m => (m.id : Int) == id).map s.detailOf)
  else .error (.defect .outOfRange)

end SiteVisit.Store
