import SiteVisit.Text.Digit

namespace SiteVisit.Text.Csv

inductive Cell
  | text (s : String) : Cell
  | int (n : Int) : Cell
  | bool (b : Bool) : Cell
  | missing : Cell
  deriving DecidableEq, Repr

def ofText? : Option String → Cell
  | none => .missing
  | some s => .text s

def needsQuotes (cs : List Char) : Bool :=
  cs.isEmpty || cs.any fun c => c == ',' || c == '"' || c == '\n' || c == '\r'

def textChars (cs : List Char) : List Char :=
  if needsQuotes cs then '"' :: cs.flatMap (fun c => if c == '"' then ['"', '"'] else [c]) ++ ['"']
  else cs

def Cell.chars : Cell → List Char
  | text s => textChars s.toList
  | int n => (signedDecimal n).toList
  | bool b => (if b then "true" else "false").toList
  | missing => []

def line (cells : List Cell) : List Char := [','].intercalate (cells.map Cell.chars) ++ ['\n']

def table (names : List String) (rows : List (List Cell)) : String :=
  String.ofList (line (names.map .text) ++ rows.flatMap line)

end SiteVisit.Text.Csv
