import SiteVisit.Markup.Run
import SiteVisit.Message

/-!
Documents as data: paragraphs and tables of formatted runs, page headers, sections and styles.
Lengths are in twips, of which an inch has 1440 and a point 20; font sizes are in half points. A
property that is not given is left to the style.
-/

namespace SiteVisit.Documents

structure Run where
  /-- A line feed is a line break. -/
  text : String
  bold : Option Bool := none
  italics : Option Bool := none
  underline : Option Bool := none
  color : Option String := none
  halfPoints : Option Nat := none
  font : Option String := none
  caps : Bool := false
  /-- The parts of a field that is computed when the document is shown. -/
  field : List String := []
  link : Option String := none
  deriving DecidableEq, Repr

inductive Alignment
  | left : Alignment
  | center : Alignment
  | right : Alignment
  deriving DecidableEq, Repr

def Alignment.name : Alignment → String
  | left => "left"
  | center => "center"
  | right => "right"

structure Border where
  edge : String
  line : String
  width : Option String := none
  distance : Option String := none
  color : Option String := none
  deriving DecidableEq, Repr

structure Paragraph where
  runs : List Run := []
  style : Option String := none
  align : Option Alignment := none
  keepWithNext : Bool := false
  spaceAfter : Option Nat := none
  borders : List Border := []
  tabs : List (Alignment × Nat) := []
  endsSection : Bool := false
  deriving DecidableEq, Repr

structure Cell where
  paragraphs : List Paragraph
  width : Nat
  /-- How many columns the cell covers. -/
  span : Nat := 1
  fill : Option String := none
  borders : List Border := []
  deriving DecidableEq, Repr

structure Row where
  cells : List Cell
  /-- Whether the row stays on one page. -/
  together : Bool := true
  repeated : Bool := false
  deriving DecidableEq, Repr

structure Table where
  columns : List Nat
  rows : List Row
  deriving DecidableEq, Repr

inductive Block
  | paragraph (p : Paragraph) : Block
  | table (t : Table) : Block
  deriving DecidableEq, Repr

structure Section where
  page : Nat × Nat := (12240, 15840)
  /-- Left, right, top and bottom. -/
  margins : List Nat := [720, 720, 720, 720]
  firstPageDiffers : Bool := true
  firstNumber : Nat := 1
  ownHeader : Bool
  deriving DecidableEq, Repr

structure ParagraphStyle where
  name : String
  base : String
  halfPoints : Nat
  font : Option String := none
  bold : Option Bool := none
  underline : Option Bool := none
  leftIndent : Option Nat := none
  firstIndent : Option Int := none
  before : Option Nat := none
  after : Option Nat := none
  deriving DecidableEq, Repr

def ParagraphStyle.idOf (name : String) : String := String.ofList (name.toList.filter (· != ' '))

structure Document where
  body : List Block := []
  firstHeader : List Paragraph := []
  runningHeader : List Paragraph := []
  sections : List Section := []
  styles : List ParagraphStyle := []
  deriving DecidableEq, Repr

namespace Block

def runs : Block → List Run
  | .paragraph p => p.runs
  | .table t => t.rows.flatMap fun r => r.cells.flatMap fun c => c.paragraphs.flatMap (·.runs)

end Block

def Run.plainText (r : Run) : String :=
  if r.link.isSome then r.text
  else String.ofList (r.text.toList.filter fun c => c != '\t' && c != '\n')

def Document.plainText (d : Document) : String :=
  String.join ((d.body.flatMap Block.runs).map Run.plainText)

def Document.links (d : Document) : List String := (d.body.flatMap Block.runs).filterMap (·.link)

def isWritable (s : String) : Bool := s.toList.all Markup.Xml.isXmlChar

/-- A line end of any kind becomes a line break; a pair of characters becomes two. -/
def breakLines (s : String) : String :=
  String.ofList (s.toList.map fun c => if c == '\r' then '\n' else c)

def writable (s : String) : Reporting Unit :=
  if isWritable s then pure () else throw (.defect .unwritable)

def textRun (s : String) : Reporting Run := do
  writable s
  return { text := breakLines s }

def boldRun (s : String) : Reporting Run := do
  return { ← textRun s with bold := some true }

def runsIfAny (s : String) : Reporting (List Run) := do
  if s.isEmpty then return [] else return [← textRun s]

def linkRun (target s : String) : Reporting Run := do
  writable s
  return { text := s, link := some target, color := some "0563C1", underline := some true }

end SiteVisit.Documents
