import SiteVisit.Message
import SiteVisit.Visit.Basic

namespace SiteVisit.Visit

def missing (m : Meeting) (i : Individual) : String :=
  "missing individual in " ++ m.name ++ ": " ++ i.id

/-- The roster entries of listed individuals. Those who are not on the roster are reported and
left out. -/
def enlisted (v : Visit) (m : Meeting) : List Individual → Reporting (List Participant)
  | [] => pure []
  | i :: rest => do
    match v.participant? i.id with
    | some p => return p :: (← enlisted v m rest)
    | none =>
      Reporting.error (missing m i)
      enlisted v m rest

def representatives (v : Visit) (m : Meeting) : Reporting (List Participant) :=
  enlisted v m m.individuals

def attendingTeam (v : Visit) (m : Meeting) : List Participant := v.teamMembers.filter m.includes

def onceEach (people : List Participant) : List Participant :=
  people.foldl (fun found p => if found.any (·.id == p.id) then found else found ++ [p]) []

def attendees (v : Visit) (m : Meeting) : Reporting (List Participant) := do
  return onceEach ((← v.representatives m) ++ v.attendingTeam m)

end SiteVisit.Visit
