import SiteVisit.Datum.Tagged
import SiteVisit.Workbook.Sheet

namespace SiteVisit

def Datum.cell (v : Datum) : Datum :=
  match v.itemsAt "rich", v.untagged with
  | [.text s], _ => .text s
  | _, .date d => ((Calendar.Wall.ofParts? d 0 0 0 0).map .wall).getD (.date d)
  | _, v => v

def Sheet.ofDatum (v : Datum) : Sheet where
  name := v.textAt "name"
  rows := (v.itemsAt "rows").map fun row => row.elements.map Datum.cell
  hidden := (v.itemsAt "hidden").filterMap fun
    | .int n => some n.toNat
    | _ => none

def Workbook.ofDatum (v : Datum) : Workbook := v.elements.map Sheet.ofDatum

end SiteVisit
