import SiteVisit.Calendar.Moment

namespace SiteVisit.Calendar

structure TimeUnit where
  micros : Int
  one : String
  many : String

def timeUnits : List TimeUnit :=
  [⟨day, "day", "days"⟩, ⟨hour, "hour", "hours"⟩, ⟨minute, "minute", "minutes"⟩]

def seconds : TimeUnit := ⟨second, "second", "seconds"⟩

def TimeUnit.count (u : TimeUnit) (n : Nat) : String :=
  Text.decimal n ++ " " ++ (if n == 1 then u.one else u.many)

def unitFor (duration : Int) : TimeUnit :=
  (timeUnits.find? (·.micros ≤ duration)).getD seconds

def durationText (duration : Int) : String :=
  let u := unitFor duration
  u.count (duration.fdiv u.micros).toNat

inductive Phase
  | startsIn (d : Int) : Phase
  | ended (d : Int) : Phase
  | ongoing : Phase
  | startedAgo (d : Int) : Phase
  | endsIn (d : Int) : Phase
  | unknown : Phase
  deriving DecidableEq, Repr

def Phase.ofDistances (toStart sinceEnd : Option Int) : Phase :=
  match toStart, sinceEnd with
  | some s, some e =>
    if 0 < s then .startsIn s else if 0 < e then .ended e else .ongoing
  | some s, none => if 0 < s then .startsIn s else .startedAgo (-s)
  | none, some e => if 0 < e then .ended e else .endsIn (-e)
  | none, none => .unknown

def Phase.text? : Phase → Option String
  | .startsIn d => some ("Starts in " ++ durationText d)
  | .ended d => some ("Ended " ++ durationText d ++ " ago")
  | .ongoing => some "Ongoing"
  | .startedAgo d => some (durationText d ++ " ago")
  | .endsIn d => some ("Ends in " ++ durationText d)
  | .unknown => none

/-- The phase of a window at a moment. The end is looked at only when the moment is not before
the start; none if a bound that is looked at cannot be compared with the moment. -/
def phase? (now : Moment) (start finish : Option Moment) : Option Phase := do
  let toStart ← start.mapM now.gap?
  if toStart.any (0 < ·) then return .ofDistances toStart none
  let sinceEnd ← finish.mapM (·.gap? now)
  return .ofDistances toStart sinceEnd

end SiteVisit.Calendar
