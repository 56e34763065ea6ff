import SiteVisit.Calendar.Date
import SiteVisit.Text.Blank
import SiteVisit.Text.Case

/-!
Reading the date labels of a schedule. Seven layouts are tried in order. Names are read in any
letter case, a weekday need not be the day's own, and an ordinal ending after a number is left
out before the layouts are tried.
-/

namespace SiteVisit.Calendar.DateLabel

open Text

inductive Part
  | weekday : Part
  | monthName : Part
  | shortMonthName : Part
  | month : Part
  | day : Part
  | year : Part
  | mark (c : Char) : Part
  deriving DecidableEq, Repr

def layouts : List (List Part) := [
  [.weekday, .mark ',', .mark ' ', .monthName, .mark ' ', .day, .mark ',', .mark ' ', .year],
  [.weekday, .mark ' ', .monthName, .mark ' ', .day, .mark ',', .mark ' ', .year],
  [.monthName, .mark ' ', .day, .mark ',', .mark ' ', .year],
  [.weekday, .mark ',', .mark ' ', .shortMonthName, .mark ' ', .day, .mark ',', .mark ' ', .year],
  [.shortMonthName, .mark ' ', .day, .mark ',', .mark ' ', .year],
  [.month, .mark '/', .day, .mark '/', .year],
  [.year, .mark '-', .month, .mark '-', .day]]

structure Found where
  year : Nat := 0
  month : Nat := 0
  day : Nat := 0
  deriving DecidableEq, Repr

def word? : List Char → List Char → Option (List Char)
  | [], cs => some cs
  | w :: ws, c :: cs => if asciiLower w == asciiLower c then word? ws cs else none
  | _ :: _, [] => none

def name? (names : List (List Char)) (cs : List Char) : Option (Nat × List Char) :=
  names.zipIdx.findSome? fun (n, i) => (word? n cs).map (i, ·)

def fullNames (names : List String) : List (List Char) := names.map String.toList

def shortNames (names : List String) : List (List Char) := names.map (·.toList.take 3)

def nonzero? (c : Char) : Option Nat :=
  if '1' ≤ c && c ≤ '9' then some (c.toNat - '0'.toNat) else none

def monthReadings : List Char → List (Nat × List Char)
  | '1' :: c :: cs =>
    (if '0' ≤ c && c ≤ '2' then [(10 + (c.toNat - '0'.toNat), cs)] else []) ++ [(1, c :: cs)]
  | '0' :: c :: cs => ((nonzero? c).map (·, cs)).toList
  | c :: cs => ((nonzero? c).map (·, cs)).toList
  | [] => []

/-- The ways to read the number of a day, longer ones first. The second digit after a 1 or a 2
may come from any script, and a single digit may stand after a blank. -/
def dayReadings : List Char → List (Nat × List Char)
  | c :: d :: cs =>
    (if c == '3' && (d == '0' || d == '1') then [(30 + (d.toNat - '0'.toNat), cs)] else []) ++
    (if c == '1' || c == '2' then
      ((digitValue? d).map fun v => (10 * (c.toNat - '0'.toNat) + v, cs)).toList else []) ++
    (if c == '0' then ((nonzero? d).map (·, cs)).toList else []) ++
    ((nonzero? c).map (·, d :: cs)).toList ++
    (if c == ' ' then ((nonzero? d).map (·, cs)).toList else [])
  | [c] => ((nonzero? c).map (·, [])).toList
  | [] => []

def year? : List Char → Option (Nat × List Char)
  | a :: b :: c :: d :: cs =>
    if [a, b, c, d].all isDigit then some (digitsValue [a, b, c, d], cs) else none
  | _ => none

def Part.readings (f : Found) (cs : List Char) : Part → List (Found × List Char)
  | .weekday => ((name? (fullNames weekdayNames) cs).map fun (_, r) => (f, r)).toList
  | .monthName =>
    ((name? (fullNames monthNames) cs).map fun (i, r) => ({ f with month := i + 1 }, r)).toList
  | .shortMonthName =>
    ((name? (shortNames monthNames) cs).map fun (i, r) => ({ f with month := i + 1 }, r)).toList
  | .month => (monthReadings cs).map fun (m, r) => ({ f with month := m }, r)
  | .day => (dayReadings cs).map fun (d, r) => ({ f with day := d }, r)
  | .year => ((year? cs).map fun (y, r) => ({ f with year := y }, r)).toList
  | .mark m =>
    match cs with
    | c :: r => if c == m then [(f, r)] else []
    | [] => []

def readParts? (f : Found) : List Part → List Char → Option Found
  | [], cs => if cs.isEmpty then some f else none
  | p :: ps, cs => (p.readings f cs).findSome? fun (f, r) => readParts? f ps r

def endsWord : List Char → Bool
  | [] => true
  | c :: _ => !(c.isAlphanum || c == '_' || isDigit c)

def isOrdinalEnding (a b : Char) : Bool :=
  (a == 's' && b == 't') || (a == 'n' && b == 'd') || (a == 'r' && b == 'd') ||
    (a == 't' && b == 'h')

def dropOrdinalEndings : List Char → List Char
  | c :: a :: b :: cs =>
    if isDigit c && isOrdinalEnding a b && endsWord cs then c :: dropOrdinalEndings cs
    else c :: dropOrdinalEndings (a :: b :: cs)
  | cs => cs

def normalize (label : List Char) : List Char :=
  dropOrdinalEndings (trimChars (squeeze ' ' label))

/-- The day that a label names: the first layout that fits it and names a day decides. -/
def parseChars (label : List Char) : Option Date :=
  let text := normalize label
  layouts.findSome? fun layout => do
    let f ← readParts? {} layout text
    Date.ofParts? f.year f.month f.day

def parse (label : String) : Option Date := parseChars label.toList

end SiteVisit.Calendar.DateLabel
