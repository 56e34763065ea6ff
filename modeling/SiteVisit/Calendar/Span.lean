import SiteVisit.Calendar.Date

namespace SiteVisit.Calendar

def widen : Option (Date × Date) → Date → Option (Date × Date)
  | none, d => some (d, d)
  | some (first, last), d =>
    some (if d.before first then d else first, if last.before d then d else last)

def bounds? (dates : List (Option Date)) : Option (Date × Date) :=
  (dates.filterMap id).foldl widen none

def Date.monthAndDay (d : Date) : String := d.monthName ++ " " ++ Text.decimal d.day

def spanLabel (first last : Date) : String :=
  if first = last then first.monthAndDay ++ ", " ++ Text.decimal first.year
  else if first.year = last.year ∧ first.month = last.month then
    first.monthAndDay ++ "-" ++ Text.decimal last.day ++ ", " ++ Text.decimal first.year
  else if first.year = last.year then
    first.monthAndDay ++ " - " ++ last.monthAndDay ++ ", " ++ Text.decimal first.year
  else
    first.monthAndDay ++ ", " ++ Text.decimal first.year ++ " - " ++ last.monthAndDay ++ ", " ++
      Text.decimal last.year

def describeSpan (dates : List (Option Date)) : String :=
  match bounds? dates with
  | none => ""
  | some (first, last) => spanLabel first last

end SiteVisit.Calendar
