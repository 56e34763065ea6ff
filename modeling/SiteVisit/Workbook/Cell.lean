import SiteVisit.Calendar.Date
import SiteVisit.Datum
import SiteVisit.Markup.Run

namespace SiteVisit.Datum

/-- The text of a cell. Dates and times of day have their labels, whole numbers no fraction, and
outer blanks are left out. -/
def cellText : Datum → String
  | .null => ""
  | .wall w => w.date.label
  | .date d => d.label
  | .clock t _ => t.label
  | .float x =>
    match x.isIntegral, x.truncate with
    | true, some n => Text.signedDecimal n
    | _, _ => x.text
  | v => Text.trim v.shown

def cellMarkup? : Datum → Option String
  | .rich runs => some (Markup.writeRuns runs)
  | _ => none

def isEmptyCell : Datum → Bool
  | .null => true
  | .text s => s.isEmpty
  | _ => false

end SiteVisit.Datum
