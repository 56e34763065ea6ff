import SiteVisit.Calendar.IsoText
import SiteVisit.Datum
import SiteVisit.Text.Digit

namespace SiteVisit

open Calendar Decimal

def Decimal.exponentOf : List Char → Int
  | '-' :: ds => -(Text.digitsValue ds : Int)
  | '+' :: ds => Text.digitsValue ds
  | ds => Text.digitsValue ds

def Decimal.Binary64.ofText (s : String) : Binary64 :=
  let (negative, cs) := match s.toList with
    | '-' :: cs => (true, cs)
    | '+' :: cs => (false, cs)
    | cs => (false, cs)
  if cs == "nan".toList then .nan
  else if cs == "inf".toList then .infinite negative
  else
    let mantissa := cs.takeWhile fun c => c != 'e' && c != 'E'
    let exponent := exponentOf ((cs.dropWhile fun c => c != 'e' && c != 'E').drop 1)
    let whole := mantissa.takeWhile (· != '.')
    let fraction := (mantissa.dropWhile (· != '.')).drop 1
    ofDecimal negative (Text.digitsValue (whole ++ fraction)) (exponent - fraction.length)

namespace Datum

def text? : Datum → Option String
  | .text s => some s
  | _ => none

def fieldAt (v : Datum) (key : String) : Datum :=
  match v with
  | .record fields _ => (field? fields key).getD .null
  | _ => .null

def textAt (v : Datum) (key : String) : String := ((v.fieldAt key).text?).getD ""

def flagAt (v : Datum) (key : String) : Bool :=
  match v.fieldAt key with
  | .bool b => b
  | _ => false

def elements : Datum → List Datum
  | .list items => items
  | _ => []

def itemsAt (v : Datum) (key : String) : List Datum := (v.fieldAt key).elements

def textsAt (v : Datum) (key : String) : List String := (v.itemsAt key).filterMap text?

def partOf : Datum → Markup.TextRun
  | .text s => { text := s }
  | v => {
      text := v.textAt "text"
      style := { bold := v.flagAt "b", italics := v.flagAt "i", underline := v.flagAt "u" } }

def timeOf? : Datum → Option TimeOfDay
  | .list [.int h, .int m] => (TimeOfDay.ofClock h m).toOption
  | _ => none

def dateOf? (v : Datum) : Option Date := v.text?.bind IsoText.parseDate

def clockOf? (s : String) : Option Datum :=
  (IsoText.parse ("2000-01-01T" ++ s)).map fun m =>
    .clock ⟨m.wall.hour, m.wall.minute, m.wall.clock_range.1, m.wall.clock_range.2.1⟩ m.wall.second

def ofTag? (key : String) (v : Datum) : Option Datum :=
  match key with
  | "float" => v.text?.map fun s => .float (Binary64.ofText s)
  | "date" => v.dateOf?.map .date
  | "datetime" => v.text?.bind fun s => (IsoText.parse s).map fun m => .wall m.wall
  | "clock" => v.text?.bind clockOf?
  | "time" => v.timeOf?.map .time
  | "rich" => some (.rich (v.elements.map partOf))
  | _ => none

def pairsOf : List Datum → List (String × Datum)
  | .list [.text key, v] :: rest => (key, v) :: pairsOf rest
  | _ :: rest => pairsOf rest
  | [] => []

mutual

def untagged : Datum → Datum
  | .list items => .list (untaggedItems items)
  | .record [("record", .list pairs)] _ => .record (fieldsOf (pairsOf (untaggedItems pairs))) []
  | .record [("display_name", name), ("id", .text id)] _ => .individual (untagged name) id
  | .record [(key, v)] markup =>
    (ofTag? key v).getD (.record [(key, untagged v)] markup)
  | .record fields markup => .record (untaggedFields fields) markup
  | v => v

def untaggedItems : List Datum → List Datum
  | [] => []
  | v :: vs => untagged v :: untaggedItems vs

def untaggedFields : List (String × Datum) → List (String × Datum)
  | [] => []
  | (key, v) :: fields => (key, untagged v) :: untaggedFields fields

end

end Datum
end SiteVisit
