import SiteVisit.Browser.When
import SiteVisit.Store.Basic
import SiteVisit.Text.Csv

namespace SiteVisit.Browser

open Calendar

structure FrameRow where
  id : Int
  name : String
  date : String
  time : String
  whenText : String
  deriving DecidableEq, Repr

def frameColumns : List String := ["id", "name", "date", "time", "when"]

namespace FrameRow

def ofMeeting (now : Moment) (m : Store.MeetingRow) : Except Fault FrameRow := do
  return {
    id := m.id, name := m.name, date := m.date, time := m.time
    whenText := ← describeWhen now m.start m.finish }

def ofRecord (now : Moment) : Datum → Except Fault FrameRow
  | .record fields _ => do
    let text (key : String) : String :=
      ((field? fields key).map fun v => if v.isVoid then "" else v.shown).getD ""
    let id ← match field? fields "id" with
      | none => .error (.defect (.missingKey "id"))
      | some (.int n) => pure n
      | some _ => .error (.defect .wrongKind)
    return {
      id, name := text "name", date := text "date", time := text "time"
      whenText := ← describeRecord now fields }
  | _ => .error (.defect .wrongKind)

def cells (r : FrameRow) : List Text.Csv.Cell :=
  [.int r.id, .text r.name, .text r.date, .text r.time, .text r.whenText]

end FrameRow

def frameCsv (rows : List FrameRow) : String := Text.Csv.table frameColumns (rows.map (·.cells))

end SiteVisit.Browser
