import SiteVisit.Calendar.Date

namespace SiteVisit.Calendar

def second : Int := 1000000

def minute : Int := 60 * second

def hour : Int := 60 * minute

def day : Int := 24 * hour

structure Wall where
  date : Date
  hour : Nat
  minute : Nat
  second : Nat
  micro : Nat
  clock_range : hour < 24 ∧ minute < 60 ∧ second < 60 ∧ micro < 1000000
  deriving DecidableEq, Repr

namespace Wall

def ofParts? (date : Date) (hour minute second micro : Nat) : Option Wall :=
  if h : hour < 24 ∧ minute < 60 ∧ second < 60 ∧ micro < 1000000 then
    some ⟨date, hour, minute, second, micro, h⟩
  else none

def micros (w : Wall) : Int :=
  ((((w.date.ordinal * 24 + w.hour) * 60 + w.minute) * 60 + w.second) * 1000000 + w.micro : Nat)

def ofMicros? (n : Int) : Option Wall := do
  let n ← n.toNat?
  let micro := n % 1000000
  let seconds := n / 1000000
  let minutes := seconds / 60
  let hours := minutes / 60
  let date ← Date.ofOrdinal? (hours / 24)
  ofParts? date (hours % 24) (minutes % 60) (seconds % 60) micro

def clockIso (w : Wall) : String :=
  Text.padded 2 w.hour ++ ":" ++ Text.padded 2 w.minute ++ ":" ++ Text.padded 2 w.second ++
    (if w.micro == 0 then "" else "." ++ Text.padded 6 w.micro)

def iso (w : Wall) : String := w.date.iso ++ "T" ++ w.clockIso

def isoMinutes (w : Wall) : String :=
  w.date.iso ++ "T" ++ Text.padded 2 w.hour ++ ":" ++ Text.padded 2 w.minute

end Wall
end SiteVisit.Calendar
