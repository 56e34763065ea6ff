import SiteVisit.Calendar.Moment
import SiteVisit.Datum
import SiteVisit.Text.Separated

namespace SiteVisit.Yaml

open Calendar Decimal

inductive Unreadable
  /-- The text breaks the rules of the format. -/
  | malformed : Unreadable
  /-- A scalar has the form of a date and is none. -/
  | noSuchDate : Unreadable
  /-- A reader fails in another way, which has a name and a text. -/
  | failing (name text : String) : Unreadable
  deriving DecidableEq, Repr

def isDigit (c : Char) : Bool := (Text.asciiDigit? c).isSome

def isOctal (c : Char) : Bool := '0' ≤ c && c ≤ '7'

def isHex (c : Char) : Bool := (Text.hexDigit? c).isSome

def number (base : Nat) (cs : List Char) : Nat :=
  (cs.filter (· != '_')).foldl (fun n c => base * n + (Text.hexDigit? c).getD 0) 0

def isRun (digit : Char → Bool) (cs : List Char) : Bool :=
  !cs.isEmpty && cs.all fun c => digit c || c == '_'

def isDecimal : List Char → Bool
  | [] => false
  | c :: cs => isDigit c && cs.all fun c => isDigit c || c == '_'

def isSixtieth : List Char → Bool
  | [d] => isDigit d
  | [t, d] => '0' ≤ t && t ≤ '5' && isDigit d
  | _ => false

def places (cs : List Char) : List (List Char) := Text.splitAt ':' cs

def baseSixty (parts : List (List Char)) : Nat := parts.foldl (fun n p => 60 * n + number 10 p) 0

def signed : List Char → Bool × List Char
  | '-' :: cs => (true, cs)
  | '+' :: cs => (false, cs)
  | cs => (false, cs)

def magnitude? : List Char → Option Nat
  | ['0'] => some 0
  | '0' :: 'b' :: cs => if isRun (fun c => c == '0' || c == '1') cs then some (number 2 cs) else none
  | '0' :: 'x' :: cs => if isRun isHex cs then some (number 16 cs) else none
  | '0' :: cs => if isRun isOctal cs then some (number 8 cs) else none
  | cs =>
    match places cs with
    | first :: rest =>
      if isDecimal first && rest.all isSixtieth then some (baseSixty (first :: rest)) else none
    | [] => none

def int? (cs : List Char) : Option Int :=
  let (negative, body) := signed cs
  (magnitude? body).map fun n => if negative then -(n : Int) else n

def exponent? : List Char → Option Int
  | [] => some 0
  | e :: sign :: cs =>
    if (e == 'e' || e == 'E') && (sign == '+' || sign == '-') && !cs.isEmpty && cs.all isDigit then
      some (if sign == '-' then -(number 10 cs : Int) else number 10 cs)
    else none
  | _ => none

def ofPlaces (negative : Bool) (whole fraction : List Char) (exponent : Int) : Binary64 :=
  let fraction := fraction.filter (· != '_')
  Binary64.ofDecimal negative (number 10 (whole ++ fraction)) (exponent - fraction.length)

def isFractionChar (c : Char) : Bool := isDigit c || c == '_'

def pointed? (cs : List Char) : Option Binary64 := do
  let (negative, body) := signed cs
  let whole := body.takeWhile (· != '.')
  match body.dropWhile (· != '.') with
  | '.' :: rest =>
    let fraction := rest.takeWhile isFractionChar
    let tail := rest.dropWhile isFractionChar
    if whole.isEmpty then
      if cs.head? == some '.' && isDecimal fraction then
        return ofPlaces false [] fraction (← exponent? tail)
      else none
    else if isDecimal whole then return ofPlaces negative whole fraction (← exponent? tail)
    else
      match places whole with
      | first :: more :: others =>
        if isDecimal first && (more :: others).all isSixtieth && tail.isEmpty then
          let n := baseSixty (first :: more :: others)
          let fraction := fraction.filter (· != '_')
          return Binary64.ofDecimal negative (n * Nat.pow 10 fraction.length + number 10 fraction)
            (-(fraction.length : Int))
        else none
      | _ => none
  | _ => none

def float? (cs : List Char) : Option Binary64 :=
  let s := String.ofList cs
  if [".nan", ".NaN", ".NAN"].contains s then some .nan
  else
    let (negative, body) := signed cs
    if [".inf", ".Inf", ".INF"].contains (String.ofList body) then some (.infinite negative)
    else pointed? cs

def truths : List String := ["yes", "Yes", "YES", "true", "True", "TRUE", "on", "On", "ON"]

def untruths : List String := ["no", "No", "NO", "false", "False", "FALSE", "off", "Off", "OFF"]

def nulls : List String := ["", "~", "null", "Null", "NULL"]

def shortNumber? (cs : List Char) : Option (Nat × List Char) :=
  match cs.span isDigit with
  | (ds, rest) => if ds.length == 1 || ds.length == 2 then some (number 10 ds, rest) else none

def fixedNumber? (count : Nat) (cs : List Char) : Option (Nat × List Char) :=
  let ds := cs.take count
  if ds.length == count && ds.all isDigit then some (number 10 ds, cs.drop count) else none

def mark? (c : Char) : List Char → Option (List Char)
  | d :: cs => if c == d then some cs else none
  | [] => none

def isGap (c : Char) : Bool := c == ' ' || c == '\t'

def zone? : List Char → Option (Option Int)
  | [] => some none
  | ['Z'] => some (some 0)
  | sign :: cs =>
    if sign == '+' || sign == '-' then do
      let (hours, rest) ← shortNumber? cs
      let minutes ← match rest with
        | [] => some 0
        | rest => do
          let (n, rest) ← fixedNumber? 2 (← mark? ':' rest)
          if rest.isEmpty then some n else none
      let n : Int := hours * 60 + minutes
      return some (if sign == '-' then -n else n)
    else none

structure Stamp where
  year : Nat
  month : Nat
  day : Nat
  clock : Option (Nat × Nat × Nat × Nat) := none
  zone : Option Int := none

def dateStamp? (cs : List Char) : Option Stamp := do
  let (year, cs) ← fixedNumber? 4 cs
  let (month, cs) ← fixedNumber? 2 (← mark? '-' cs)
  let (day, cs) ← fixedNumber? 2 (← mark? '-' cs)
  if cs.isEmpty then some { year, month, day } else none

def momentStamp? (cs : List Char) : Option Stamp := do
  let (year, cs) ← fixedNumber? 4 cs
  let (month, cs) ← shortNumber? (← mark? '-' cs)
  let (day, cs) ← shortNumber? (← mark? '-' cs)
  let cs ← match cs with
    | 'T' :: cs => some cs
    | 't' :: cs => some cs
    | c :: cs => if isGap c then some (cs.dropWhile isGap) else none
    | [] => none
  let (hour, cs) ← shortNumber? cs
  let (minute, cs) ← fixedNumber? 2 (← mark? ':' cs)
  let (second, cs) ← fixedNumber? 2 (← mark? ':' cs)
  let (fraction, cs) := match cs with
    | '.' :: cs => cs.span isDigit
    | cs => ([], cs)
  let micro := number 10 ((fraction ++ List.replicate 6 '0').take 6)
  let zone ← zone? (cs.dropWhile isGap)
  return { year, month, day, clock := some (hour, minute, second, micro), zone }

def Stamp.value (s : Stamp) : Except Unreadable Datum :=
  match Date.ofParts? s.year s.month s.day, s.clock with
  | none, _ => .error .noSuchDate
  | some d, none => .ok (.date d)
  | some d, some (hour, minute, second, micro) =>
    match Wall.ofParts? d hour minute second micro, s.zone with
    | none, _ => .error .noSuchDate
    | some w, none => .ok (.wall w)
    | some w, some offset =>
      .ok (.text ((Datum.wall w).shown ++ Moment.offsetIso (offset * Calendar.minute)))

/-- The value of a plain scalar. The sign of equality alone has a meaning that no setting
uses. -/
def resolve (cs : List Char) : Except Unreadable Datum :=
  let s := String.ofList cs
  if truths.contains s then .ok (.bool true)
  else if untruths.contains s then .ok (.bool false)
  else if nulls.contains s then .ok .null
  else if s == "=" then .error .malformed
  else
    match float? cs, int? cs, dateStamp? cs, momentStamp? cs with
    | some x, _, _, _ => .ok (.float x)
    | _, some n, _, _ => .ok (.int n)
    | _, _, some d, _ => d.value
    | _, _, _, some m => m.value
    | _, _, _, _ => .ok (.text s)

end SiteVisit.Yaml
