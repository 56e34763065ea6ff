import SiteVisit.Mapping.Eval
import SiteVisit.Workbook.Sheet

namespace SiteVisit

def emptyHeader : String := "__EMPTY"

/-- Names for headers. A header that has come before has the number of its earlier occurrences
after it. -/
def headerNamesFrom (earlier : List String) : List String → List String
  | [] => []
  | raw :: rest =>
    let trimmed := Text.trim raw
    let base := if trimmed.isEmpty then emptyHeader else trimmed
    let repeats := earlier.count base
    (if repeats == 0 then base else base ++ "_" ++ Text.decimal repeats) ::
      headerNamesFrom (base :: earlier) rest

def headerNames (values : List String) : List String := headerNamesFrom [] values

def Line.record (names : List String) (l : Line) : Datum :=
  .record
    (fieldsOf (names.zipIdx.map fun (name, i) => (name, .text (l.value i))))
    (fieldsOf ((names.zip l.markup).filterMap fun (name, markup) =>
      (markup.filter (!·.isEmpty)).map (name, ·)))

/-- The records of the rows below the header row. Blank rows and hidden rows are left out; the
header row may be hidden. -/
def Sheet.records (s : Sheet) (header : Int) : List NumberedRow :=
  match lineAt? s.allLines header with
  | none => []
  | some head =>
    let names := headerNames head.values
    (s.allLines.filter fun l => head.number < l.number && !l.isBlank && !s.isHidden l.number).map
      fun l => ⟨some l.number, l.record names⟩

end SiteVisit
