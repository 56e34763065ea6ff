import SiteVisit.Text.Digit

namespace SiteVisit.Calendar

def isLeap (year : Nat) : Bool := year % 4 == 0 && (year % 100 != 0 || year % 400 == 0)

def daysInMonth (year month : Nat) : Nat :=
  if month == 2 then (if isLeap year then 29 else 28)
  else if month == 4 || month == 6 || month == 9 || month == 11 then 30
  else 31

structure Date where
  year : Nat
  month : Nat
  day : Nat
  year_range : 1 ≤ year ∧ year ≤ 9999
  month_range : 1 ≤ month ∧ month ≤ 12
  day_range : 1 ≤ day ∧ day ≤ daysInMonth year month
  deriving DecidableEq, Repr

namespace Date

def ofParts? (year month day : Nat) : Option Date :=
  if hy : 1 ≤ year ∧ year ≤ 9999 then
    if hm : 1 ≤ month ∧ month ≤ 12 then
      if hd : 1 ≤ day ∧ day ≤ daysInMonth year month then some ⟨year, month, day, hy, hm, hd⟩
      else none
    else none
  else none

end Date

def daysBeforeYear (year : Nat) : Nat :=
  let y := year - 1
  365 * y + y / 4 - y / 100 + y / 400

def daysBeforeMonth (year : Nat) : Nat → Nat
  | 0 | 1 => 0
  | month + 1 => daysBeforeMonth year month + daysInMonth year month

namespace Date

def ordinal (d : Date) : Nat := daysBeforeYear d.year + daysBeforeMonth d.year d.month + d.day

def climbYears (n : Nat) : Nat → Nat → Nat
  | 0, year => year
  | steps + 1, year => if daysBeforeYear (year + 1) < n then climbYears n steps (year + 1) else year

def climbMonths (year n : Nat) : Nat → Nat → Nat
  | 0, month => month
  | steps + 1, month =>
    if daysBeforeMonth year (month + 1) < n then climbMonths year n steps (month + 1) else month

/-- The day with a given number. A year has at most 366 days, so the search starts at most a
month of years too early. -/
def ofOrdinal? (n : Nat) : Option Date :=
  let year := climbYears n 31 ((n - 1) / 366 + 1)
  let inYear := n - daysBeforeYear year
  let month := climbMonths year inYear 11 1
  ofParts? year month (inYear - daysBeforeMonth year month)

def weekday (d : Date) : Nat := (d.ordinal + 6) % 7

def before (a b : Date) : Bool := a.ordinal < b.ordinal

def first : Date := ⟨1, 1, 1, by decide, by decide, by decide⟩

def iso (d : Date) : String :=
  Text.padded 4 d.year ++ "-" ++ Text.padded 2 d.month ++ "-" ++ Text.padded 2 d.day

end Date

def monthNames : List String :=
  ["January", "February", "March", "April", "May", "June", "July", "August", "September",
    "October", "November", "December"]

def weekdayNames : List String :=
  ["Monday", "Tuesday", "Wednesday", "Thursday", "Friday", "Saturday", "Sunday"]

def Date.monthName (d : Date) : String := monthNames.getD (d.month - 1) ""

def Date.weekdayName (d : Date) : String := weekdayNames.getD d.weekday ""

def Date.label (d : Date) : String :=
  d.weekdayName ++ ", " ++ d.monthName ++ " " ++ Text.decimal d.day ++ ", " ++ Text.decimal d.year

end SiteVisit.Calendar
