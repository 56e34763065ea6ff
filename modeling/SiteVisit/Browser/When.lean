import SiteVisit.Calendar.Relative
import SiteVisit.Store.Stamp

namespace SiteVisit.Browser

open Calendar

def phase (now : Moment) (start finish : Option String) : Except Fault Phase := do
  let start ← Stamp.read start
  let finish ← Stamp.read finish
  match phase? now start finish with
  | some p => return p
  | none => .error (.defect .wrongKind)

def describeWhen (now : Moment) (start finish : Option String) : Except Fault String := do
  return ((← phase now start finish).text?).getD ""

def stampField (fields : List (String × Datum)) (key : String) : Except Fault (Option String) :=
  match (field? fields key).getD .null with
  | .text s => .ok (some s)
  | v => if v.isVoid then .ok none else .error (.defect .wrongKind)

def describeRecord (now : Moment) (fields : List (String × Datum)) : Except Fault String := do
  let start ← stampField fields "start_time"
  let _ ← Stamp.read start
  let finish ← stampField fields "end_time"
  describeWhen now start finish

end SiteVisit.Browser
