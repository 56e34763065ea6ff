import SiteVisit.Fault
import SiteVisit.Workbook.Cell

/-!
Sheets as rectangles of cells, and their rows as lines of text. A sheet ends with the last row
and the last column that hold anything, and every line is as wide as the sheet. Cells that have a
format but no content hold nothing, so that none of them are found behind the last content.
-/

namespace SiteVisit

structure Sheet where
  name : String
  rows : List (List Datum)
  /-- The numbers of the hidden rows; the first row has number 1. -/
  hidden : List Nat := []

abbrev Workbook := List Sheet

structure Line where
  number : Nat
  values : List String
  markup : List (Option String) := []
  deriving DecidableEq, Repr

def Line.value (l : Line) (column : Nat) : String := l.values.getD column ""

def Line.isBlank (l : Line) : Bool := l.values.all (· == "")

def usedCells (row : List Datum) : List Datum := (row.reverse.dropWhile Datum.isEmptyCell).reverse

def usedRows (rows : List (List Datum)) : List (List Datum) :=
  ((rows.map usedCells).reverse.dropWhile List.isEmpty).reverse

namespace Sheet

def width (s : Sheet) : Nat := (usedRows s.rows).foldl (fun w row => max w row.length) 0

def rectangle (s : Sheet) : List (List Datum) :=
  (usedRows s.rows).map fun row => row ++ List.replicate (s.width - row.length) .null

def isHidden (s : Sheet) (number : Nat) : Bool := s.hidden.contains number

def allLines (s : Sheet) : List Line :=
  s.rectangle.zipIdx.map fun (row, i) => ⟨i + 1, row.map Datum.cellText, row.map Datum.cellMarkup?⟩

def lines (s : Sheet) (skipHidden : Bool) : List Line :=
  s.allLines.filter fun l => !(skipHidden && s.isHidden l.number)

end Sheet

def lineAt? (lines : List Line) (position : Int) : Option Line :=
  lines.find? fun l => (l.number : Int) == position + 1

def Workbook.sheet (w : Workbook) (name : String) : Except Fault Sheet :=
  match w.find? (·.name == name) with
  | some s => .ok s
  | none => .error (.problem (.missingSheet name (w.map (·.name))))

end SiteVisit
