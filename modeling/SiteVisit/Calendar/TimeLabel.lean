import SiteVisit.Calendar.TimeOfDay
import SiteVisit.Text.Blank
import SiteVisit.Text.Case

namespace SiteVisit.Calendar.TimeLabel

open Text

structure Reading where
  hour : Nat
  minute : Nat
  deriving DecidableEq, Repr

inductive Label
  | upTo (finish : Reading) (meridiem : Meridiem) : Label
  | single (start : Reading) (meridiem : Meridiem) : Label
  | range (start finish : Reading) (meridiem : Meridiem) : Label
  deriving DecidableEq, Repr

def letter? (l : Char) : List Char → Option (List Char)
  | c :: cs => if asciiLower c == l then some cs else none
  | [] => none

def blanks? : List Char → Option (List Char)
  | c :: cs => if isBlank c then some (trimStart cs) else none
  | [] => none

def skipDot : List Char → List Char
  | '.' :: cs => cs
  | cs => cs

def minute? : List Char → Option (Nat × List Char)
  | ':' :: a :: b :: cs => if isDigit a && isDigit b then some (digitsValue [a, b], cs) else none
  | _ => none

def reading? : List Char → Option (Reading × List Char)
  | a :: b :: cs =>
    if isDigit a && isDigit b then
      (minute? cs).map fun (m, r) => (⟨digitsValue [a, b], m⟩, r)
    else if isDigit a then
      (minute? (b :: cs)).map fun (m, r) => (⟨digitsValue [a], m⟩, r)
    else none
  | _ => none

def meridiem? : List Char → Option (Meridiem × List Char)
  | c :: cs => do
    let meridiem ← if asciiLower c == 'a' then some Meridiem.am
      else if asciiLower c == 'p' then some Meridiem.pm else none
    let rest ← letter? 'm' (trimStart (skipDot cs))
    return (meridiem, skipDot rest)
  | [] => none

def isDash (c : Char) : Bool := c == '-' || c == '\u2013' || c == '\u2014'

def dash? (cs : List Char) : Option (List Char) :=
  match trimStart cs with
  | c :: rest => if isDash c then some (trimStart rest) else none
  | [] => none

def lastClock? (cs : List Char) : Option (Reading × Meridiem) := do
  let (r, cs) ← reading? cs
  let (m, cs) ← meridiem? (trimStart cs)
  if cs.isEmpty then some (r, m) else none

def upTo? (cs : List Char) : Option Label := do
  let cs ← letter? 'p' (← letter? 'u' cs)
  let cs ← letter? 'o' (← letter? 't' (← blanks? cs))
  let (r, m) ← lastClock? (← blanks? cs)
  return .upTo r m

def single? (cs : List Char) : Option Label := do
  let (r, m) ← lastClock? cs
  return .single r m

def range? (cs : List Char) : Option Label := do
  let (start, cs) ← reading? cs
  let (finish, m) ← lastClock? (← dash? cs)
  return .range start finish m

def Label.read? (cs : List Char) : Option Label :=
  (upTo? cs).orElse fun _ => (single? cs).orElse fun _ => range? cs

def Reading.time? (r : Reading) (m : Meridiem) : Option TimeOfDay :=
  (TimeOfDay.ofMeridiem r.hour r.minute m).toOption

def Label.times? : Label → Option TimeRange
  | .upTo r m => (r.time? m).map fun t => ⟨none, some t⟩
  | .single r m => (r.time? m).map fun t => ⟨some t, none⟩
  | .range s f m => do
    let finish ← f.time? m
    let start ← s.time? m
    if start.minutes ≤ finish.minutes then return ⟨some start, some finish⟩
    return ⟨some (← s.time? .am), some finish⟩

def parseChars (text : List Char) : Option TimeRange :=
  let label := trimChars text
  if label.isEmpty then some {} else (Label.read? label).bind Label.times?

def parse (text : String) : Option TimeRange := parseChars text.toList

end SiteVisit.Calendar.TimeLabel
