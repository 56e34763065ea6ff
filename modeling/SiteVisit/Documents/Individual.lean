import SiteVisit.Documents.Layout
import SiteVisit.Mapping.Eval

namespace SiteVisit.Documents.Individual

def title : Title := ⟨"Team Member Itinerary", "Team Member Itinerary"⟩

def widths : List Nat := [2160, 4320, 4320]

def labels : List String := ["Time", "Meeting", "Location"]

def meetingsFor (v : Visit) (p : Participant) : List Meeting := v.meetings.filter (·.includes p)

def centered (text : String) (points : Nat) : Reporting Paragraph := do
  let run ← boldRun text
  return { runs := [{ run with halfPoints := some (2 * points) }], align := some .center }

def meetingRow (v : Visit) (m : Meeting) : Reporting Row := do
  let time ← timeCell 2160 m.time false
  let name ← textCell 4320 m.name
  let place ← locationCell 4320 v m m.zoomIsPrimary
  return { cells := [time, name, place] }

def dayRows (v : Visit) (date : String) (meetings : List Meeting) : Reporting (List Row) := do
  let head ← spanningRow widths date
  let columns ← headerRow widths labels
  return head :: columns :: (← meetings.mapM (meetingRow v))

def memberBlocks (v : Visit) (p : Participant) : Reporting (List Block) := do
  let name ← centered p.fullName 20
  let line ← centered (Text.trim (p.title ++ " Itinerary")) 16
  let days ← (groupBy (·.date) (meetingsFor v p)).mapM fun (date, meetings) =>
    dayRows v date meetings
  return [.paragraph name, .paragraph line, .table ⟨widths, days.flatten⟩]

def sectionEnd : Block := .paragraph { endsSection := true }

def generate (v : Visit) (settings : DocumentSettings) : Reporting Document := do
  let document ← startDocument settings title (visitDates v settings)
  if v.teamMembers.isEmpty then
    Reporting.warn "no team members with roles; individual itineraries are empty"
  let members ← v.teamMembers.mapM (memberBlocks v)
  return { document with
    body := [sectionEnd].intercalate members
    sections := document.sections ++ (members.drop 1).map fun _ => { ownHeader := false } }

end SiteVisit.Documents.Individual
