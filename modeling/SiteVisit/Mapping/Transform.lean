import SiteVisit.Calendar.DateLabel
import SiteVisit.Calendar.TimeLabel
import SiteVisit.Mapping.Match
import SiteVisit.Text.Separated
import SiteVisit.Text.Slug

namespace SiteVisit

open Calendar

namespace Datum

def isMarked (v : Datum) : Bool := !(Text.trim v.words).isEmpty

def items (v : Datum) : List String := Text.commaList v.words

def slug (v : Datum) : String := Text.slug v.words

end Datum

def Individual.ofName (name : String) : Individual := ⟨name, Text.slug name⟩

namespace Transform

def mark : Transform := fun v => .ok (.bool v.isMarked)

def commaList : Transform := fun v => .ok (.ofTexts v.items)

def slug : Transform := fun v => .ok (.text v.slug)

def person : Transform := fun v => .ok (.individual v v.slug)

def people : Transform := fun v => .ok (.individuals (v.items.map .ofName))

def ofTime? : Option TimeOfDay → Datum
  | none => .null
  | some t => .time t

def timeRangeOf (v : Datum) : Except Fault TimeRange :=
  match TimeLabel.parse v.words with
  | some r => .ok r
  | none => .error (.ofMapping (.unparseableTime (Text.trim v.words)))

def timeRange : Transform := fun v => (timeRangeOf v).map .range

def timeFields : Transform := fun v => do
  let r ← timeRangeOf v
  return .record [("time", .text (Text.trim v.words)), ("start_time", ofTime? r.start),
    ("end_time", ofTime? r.finish)] []

def date : Transform := fun v =>
  .ok (match DateLabel.parse v.words with
    | some d => .date d
    | none => .null)

def identity : Transform := .ok

def parts : Transform
  | .record fields _ => .ok (.ofTexts (fields.map (·.1)))
  | .text s => .ok (.ofTexts (s.toList.map String.singleton))
  | .list items => .ok (.list items)
  | .individuals people => .ok (.list (people.map fun i => .individual (.text i.name) i.id))
  | _ => .error (.defect .wrongKind)

def count : Transform := fun v => do
  match ← parts v with
  | .list items => return .int items.length
  | _ => .error (.defect .wrongKind)

def markupOf (column : String) : Transform
  | .record _ markup =>
    .ok (match (field? markup column).filter (!·.isEmpty) with
      | some m => .text m
      | none => .null)
  | _ => .ok .null

end Transform

namespace Derivation

def fieldOf (fields : List (String × Datum)) (key : String) : Except Fault Datum :=
  match field? fields key with
  | some v => .ok v
  | none => .error (.defect (.missingKey key))

def join (sep : String) (keys : List String) : Derivation := fun fields => do
  let values ← keys.mapM (fieldOf fields)
  return .text (sep.intercalate (values.map Datum.shown))

end Derivation

end SiteVisit
