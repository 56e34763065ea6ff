namespace SiteVisit

structure SheetNames where
  meetings : String := "Proposed Meetings-MSCHE Team"
  participants : String := "Participant List"
  zoomRooms : String := "Zoom Rooms"
  deriving DecidableEq, Repr

inductive RoleSource
  | participantsTable : RoleSource
  | meetingsTable (nameRow headerRow : Int) : RoleSource
  deriving DecidableEq, Repr

namespace RoleSource

def type : RoleSource → String
  | participantsTable => "participantsTable"
  | meetingsTable _ _ => "meetingsTable"

def fromColumn : RoleSource → Bool
  | participantsTable => true
  | meetingsTable _ _ => false

end RoleSource

structure LoadOptions where
  roleSource : RoleSource := .participantsTable
  /-- The position of the header row of the schedule. -/
  meetingsHeader : Int := 0
  sheets : SheetNames := {}
  deriving DecidableEq, Repr

structure DocumentSettings where
  institution : String := "Commonwealth University"
  visitTitle : String := "MSCHE Team Visit"
  visitDates : String := ""
  teamLabel : String := "MSCHE Team Member(s)"
  representativeLabel : String := "CU Representative(s)"
  deriving DecidableEq, Repr

structure Settings where
  loadOptions : LoadOptions := {}
  documents : DocumentSettings := {}
  storePath : String := "visit.db"
  timezone : String := "America/New_York"
  maxWorkers : Int := 4
  deriving DecidableEq, Repr

end SiteVisit
