import SiteVisit.Calendar.Moment
import SiteVisit.Text.Blank

namespace SiteVisit.Calendar.IsoText

open Text (asciiDigit?)

def digitsFrom? (n : Nat) : Nat → List Char → Option (Nat × List Char)
  | 0, cs => some (n, cs)
  | count + 1, c :: cs => (asciiDigit? c).bind fun v => digitsFrom? (10 * n + v) count cs
  | _ + 1, [] => none

def digits? (count : Nat) (cs : List Char) : Option (Nat × List Char) := digitsFrom? 0 count cs

def firstMonday (year : Nat) : Nat :=
  let firstDay := daysBeforeYear year + 1
  let weekday := (firstDay + 6) % 7
  let monday := firstDay - weekday
  if 3 < weekday then monday + 7 else monday

def weeksInYear (year : Nat) : Nat :=
  let weekday := (daysBeforeYear year + 7) % 7
  if weekday == 3 || (weekday == 2 && isLeap year) then 53 else 52

def ofWeek? (year week day : Nat) : Option Date :=
  if 1 ≤ year && year ≤ 9999 && 1 ≤ week && week ≤ weeksInYear year && 1 ≤ day && day ≤ 7 then
    Date.ofOrdinal? (firstMonday year + 7 * (week - 1) + (day - 1))
  else none

def hyphen? (inUse : Bool) (cs : List Char) : Option (List Char) :=
  if inUse then
    match cs with
    | '-' :: rest => some rest
    | _ => none
  else some cs

def date? (cs : List Char) : Option Date := do
  let (year, cs) ← digits? 4 cs
  let hyphens := cs.head? == some '-'
  match if hyphens then cs.drop 1 else cs with
  | 'W' :: cs =>
    let (week, cs) ← digits? 2 cs
    if cs.isEmpty then ofWeek? year week 1
    else
      let (day, _) ← digits? 1 (← hyphen? hyphens cs)
      ofWeek? year week day
  | cs =>
    let (month, cs) ← digits? 2 cs
    let (day, _) ← digits? 2 (← hyphen? hyphens cs)
    Date.ofParts? year month day

def dateLength? (cs : List Char) : Option Nat :=
  let at? (i : Nat) : Option Char := cs[i]?
  let isDigitAt (i : Nat) : Bool := ((at? i).bind asciiDigit?).isSome
  if cs.length < 7 then none
  else if cs.length == 7 then some 7
  else if at? 4 == some '-' then
    if at? 5 == some 'W' then
      if at? 8 == some '-' then
        if cs.length == 9 then none else if isDigitAt 10 then some 8 else some 10
      else some 8
    else some 10
  else if at? 4 == some 'W' then
    -- an even number of digits is left to the time of day
    let stop := 7 + ((cs.drop 7).takeWhile fun c => (asciiDigit? c).isSome).length
    if stop < 9 then some stop else if stop % 2 == 0 then some 7 else some 8
  else some 8

structure Clock where
  hour : Nat := 0
  minute : Nat := 0
  second : Nat := 0
  micro : Nat := 0
  deriving DecidableEq, Repr

/-- Up to six places of a second; further digits are left out. The flag says that the text ends
with the digits. -/
def fraction? (cs : List Char) : Option (Nat × Bool) := do
  let places := min 6 cs.length
  let (n, rest) ← digits? places cs
  return (n * Nat.pow 10 (6 - places), (rest.dropWhile fun c => (asciiDigit? c).isSome).isEmpty)

/-- Reads the fields of a clock from the one after `done` on; `colons` tells whether they stand
between the fields. The flag says that nothing is left over. -/
def fields? (colons : Bool) (c : Clock) : Nat → List Char → Option (Clock × Bool)
  | 0, cs => (fraction? cs).map fun (n, ends) => ({ c with micro := n }, ends)
  | left + 1, cs => do
    let (n, cs) ← digits? 2 cs
    let c := if left == 2 then { c with hour := n } else if left == 1 then { c with minute := n }
      else { c with second := n }
    match cs with
    | [] => return (c, true)
    | [mark] => if mark.toNat < 128 then return (c, false) else none
    | mark :: rest =>
      let colons := if left == 2 then mark == ':' else colons
      if colons && mark == ':' then
        if left == 0 then (fraction? rest).map fun (n, ends) => ({ c with micro := n }, ends)
        else fields? colons c left rest
      else if mark == '.' || mark == ',' then
        (fraction? rest).map fun (n, ends) => ({ c with micro := n }, ends)
      else if colons then none
      else fields? colons c left cs

def clock? (cs : List Char) : Option (Clock × Bool) := fields? true {} 3 cs

def isOffsetMark (c : Char) : Bool := c == '+' || c == '-' || c == 'Z'

/-- A distance from universal time, less than a day. One of less than a second is none. -/
def offset? (negative : Bool) (cs : List Char) : Option Int := do
  let (c, ends) ← clock? cs
  if !ends then none
  let seconds : Int := (c.hour * 60 + c.minute) * 60 + c.second
  let n : Int := if seconds == 0 then 0 else seconds * 1000000 + c.micro
  if n < day then some (if negative then -n else n) else none

def time? (cs : List Char) : Option (Clock × Frame) := do
  let front := cs.takeWhile (!isOffsetMark ·)
  match cs.dropWhile (!isOffsetMark ·) with
  | [] =>
    let (c, ends) ← clock? front
    if ends then some (c, .unknown) else none
  | mark :: rest =>
    let (c, _) ← clock? front
    if mark == 'Z' then (if rest.isEmpty then some (c, .fixed 0) else none)
    else return (c, .fixed (← offset? (mark == '-') rest))

def parseChars (cs : List Char) : Option Moment := do
  let length ← dateLength? cs
  let date ← date? (cs.take length)
  let (c, frame) ← match cs.drop length with
    | [] => some ({}, .unknown)
    | _ :: rest => time? rest
  let wall ← Wall.ofParts? date c.hour c.minute c.second c.micro
  return ⟨wall, frame⟩

def parse (s : String) : Option Moment := parseChars s.toList

def parseDate (s : String) : Option Date :=
  if s.length == 10 then date? s.toList else none

/-- The moment that overrides the present time: blanks around it are ignored, a final Z stands
for universal time, and a reading without a distance refers to what is given for it. The result is
none for a text that writes no moment, and what is given is asked for only when it is needed. -/
def overrideBy (text : String) (frame? : Option (Wall → Frame)) : Option (Option Moment) :=
  let cs := Text.trimChars text.toList
  if cs.isEmpty then some none else
  let cs := if cs.getLast? == some 'Z' then cs.dropLast ++ "+00:00".toList else cs
  match parseChars cs with
  | none => some none
  | some m =>
    match m.frame, frame? with
    | .unknown, some frame => some (some { m with frame := frame m.wall })
    | .unknown, none => none
    | _, _ => some (some m)

def override? (text : String) (zone? : Option Zone) : Option (Option Moment) :=
  overrideBy text (zone?.map fun z _ => .zone z)

end SiteVisit.Calendar.IsoText
