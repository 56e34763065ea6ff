import SiteVisit.Documents.Layout
import SiteVisit.Mapping.Eval

namespace SiteVisit.Documents.Summary

def title : Title := ⟨"Summary Itinerary and Key Contacts", "Summary Itinerary & Key Contacts"⟩

def rolesTitle : Title := ⟨"Summary Itinerary with Team Roles", "Summary Itinerary & Team Roles"⟩

def widths (withRoles : Bool) : List Nat :=
  if withRoles then [1800, 3600, 2880, 2520] else [2160, 4320, 4320]

def labels (withRoles : Bool) : List String :=
  ["Time", "Meeting", "Location"] ++ if withRoles then ["Team Roles"] else []

def ifSet (b : Bool) : Option Bool := if b then some true else none

def formattedRun (r : Markup.TextRun) : Reporting Run := do
  return { ← textRun r.text with
    bold := ifSet r.style.bold, italics := ifSet r.style.italics
    underline := ifSet r.style.underline }

def plainRoles (m : Meeting) : String :=
  if m.rolesText.isEmpty then ", ".intercalate m.roleLabels else m.rolesText

/-- The annotation of a meeting with its formatting. If the markup cannot be interpreted, the
plain annotation stands in its place. -/
def rolesRuns (m : Meeting) : Reporting (List Run) := do
  match m.rolesMarkup.filter (!·.isEmpty) with
  | none => runsIfAny (plainRoles m)
  | some markup =>
    match Markup.readRuns markup with
    | .ok runs => runs.mapM formattedRun
    | .error p =>
      Reporting.warn ("team roles for " ++ Text.quoted m.name ++ " shown unformatted: " ++ p.message)
      runsIfAny (plainRoles m)

def hiddenEdges (top bottom : Bool) : List Border :=
  (if top then [{ edge := "top", line := "nil" }] else []) ++
    (if bottom then [{ edge := "bottom", line := "nil" }] else [])

def meetingRow (v : Visit) (withRoles isFirst isLast : Bool) (m : Meeting) : Reporting Row := do
  let width (i : Nat) : Nat := (widths withRoles).getD i 0
  let time ← timeCell (width 0) (if isFirst then m.time else "") (!isLast)
  let name ← textCell (width 1) m.name
  let place ← locationCell (width 2) v m m.showsZoom
  let roles ← if withRoles then do
      let runs ← rolesRuns m
      pure [plainCell (width 3) { runs }]
    else pure []
  return { cells := [{ time with borders := hiddenEdges (!isFirst) (!isLast) }, name, place] ++ roles }

def slotRows (v : Visit) (withRoles isFirst : Bool) : List Meeting → Reporting (List Row)
  | [] => pure []
  | m :: rest => do
    let row ← meetingRow v withRoles isFirst rest.isEmpty m
    return row :: (← slotRows v withRoles false rest)

def dayTable (v : Visit) (withRoles : Bool) (date : String) (meetings : List Meeting) :
    Reporting Table := do
  let head ← spanningRow (widths withRoles) date
  let columns ← headerRow (widths withRoles) (labels withRoles)
  let slots ← (groupBy (·.time) meetings).mapM fun (_, slot) => slotRows v withRoles true slot
  return {
    columns := widths withRoles
    rows := { head with repeated := true } :: { columns with repeated := true } :: slots.flatten }

def generate (withRoles : Bool) (v : Visit) (settings : DocumentSettings) : Reporting Document := do
  let document ← startDocument settings (if withRoles then rolesTitle else title)
    (visitDates v settings)
  let days ← (groupBy (·.date) v.meetings).mapM fun (date, meetings) =>
    dayTable v withRoles date meetings
  return { document with body := [Block.paragraph {}].intercalate (days.map fun t => [.table t]) }

end SiteVisit.Documents.Summary
