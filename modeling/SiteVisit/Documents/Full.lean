import SiteVisit.Documents.Layout
import SiteVisit.Mapping.Eval
import SiteVisit.Visit.Attendance

namespace SiteVisit.Documents.Full

def title : Title := ⟨"Detailed Itinerary", "Detailed Itinerary"⟩

def allTeamMembers : String := "All Team Members"

def dateStyle : ParagraphStyle where
  name := "Itinerary Date"
  base := "Normal"
  font := some "Times New Roman"
  halfPoints := 28
  bold := some true
  underline := some true

def hanging (name base : String) (left hang halfPoints : Nat) : ParagraphStyle where
  name := name
  base := base
  halfPoints := halfPoints
  leftIndent := some left
  firstIndent := some (-(hang : Int))
  before := some 80
  after := some 80

def meetingStyle : ParagraphStyle := hanging "Itinerary Meeting" "Normal" 1080 720 24

def groupStyle : ParagraphStyle := hanging "Itinerary Group" "Normal" 1440 360 20

def personStyle : ParagraphStyle := hanging "Itinerary Person" "List Bullet" 2160 360 20

def styles : List ParagraphStyle := [dateStyle, meetingStyle, groupStyle, personStyle]

def styled (style : ParagraphStyle) (runs : List Run) : Paragraph :=
  { runs, style := some (ParagraphStyle.idOf style.name) }

def separated (isFirst : Bool) : List (Reporting Run) → Reporting (List Run)
  | [] => pure []
  | part :: rest => do
    let comma : Run := { text := ", ", bold := some isFirst }
    let run ← part
    return comma :: run :: (← separated false rest)

def meetingLine (v : Visit) (m : Meeting) : Reporting Paragraph := do
  let name ← boldRun m.name
  let time : List (Reporting Run) :=
    if m.time.isEmpty then [] else [do return { ← textRun m.time with color := some timeColor }]
  let place := if m.location.isEmpty then [] else [textRun m.location]
  let room := if m.showsZoom then [zoomRun v m] else []
  return styled meetingStyle (name :: (← separated true (time ++ place ++ room)))

def personLine (p : Participant) : Reporting Paragraph := do
  if p.title.isEmpty then return styled personStyle [← boldRun p.fullName]
  let name ← boldRun (p.fullName ++ ", ")
  let title ← textRun p.title
  return styled personStyle [name, title]

def heading (text : String) : Reporting Paragraph := do
  return styled groupStyle [← boldRun text]

def group (text : String) (people : List Participant) : Reporting (List Paragraph) := do
  let head ← heading text
  return head :: (← people.mapM personLine)

/-- The members of the team who attend a meeting, or one line if all do. -/
def team (v : Visit) (settings : DocumentSettings) (m : Meeting) : Reporting (List Paragraph) := do
  let attending := v.attendingTeam m
  if attending.isEmpty then return []
  if attending.length == v.teamMembers.length then
    let head ← heading settings.teamLabel
    let all ← textRun allTeamMembers
    return [head, styled personStyle [all]]
  group settings.teamLabel attending

def people (v : Visit) (settings : DocumentSettings) (m : Meeting) :
    Reporting (List Paragraph) := do
  if m.hidesNames then return []
  let team ← team v settings m
  let found ← v.representatives m
  let others ← if found.isEmpty then pure [] else group settings.representativeLabel found
  return team ++ others

def meeting (v : Visit) (settings : DocumentSettings) (m : Meeting) :
    Reporting (List Paragraph) := do
  let line ← meetingLine v m
  return line :: (← people v settings m)

def day (v : Visit) (settings : DocumentSettings) (date : String) (meetings : List Meeting) :
    Reporting (List Paragraph) := do
  let head := styled dateStyle (← runsIfAny date)
  let blocks ← meetings.mapM (meeting v settings)
  return head :: blocks.flatten

def generate (v : Visit) (settings : DocumentSettings) : Reporting Document := do
  let document ← startDocument settings title (visitDates v settings)
  let days ← (groupBy (·.date) v.meetings).mapM fun (date, meetings) => day v settings date meetings
  return { document with body := days.flatten.map .paragraph, styles }

end SiteVisit.Documents.Full
