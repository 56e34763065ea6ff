import SiteVisit.Fault
import SiteVisit.Visit.Basic
import SiteVisit.Workbook.Sheet

/-!
Roles that are assigned by the schedule: a row of last names stands above the row of headers, and
the header below a name is a role of the one person with that last name.
-/

namespace SiteVisit

/-- A computation that gives roles to the people of a roster and may end with a fault; the roles
that were given before it stay. -/
abbrev Assigning := ExceptT Fault (StateM (List Participant))

def onlyNamed (participants : List Participant) (lastName role : String) :
    Except Fault Participant :=
  match participants.filter (·.lastName == lastName) with
  | [] => .error (.problem (.noCandidate lastName role))
  | [p] => .ok p
  | several => .error (.problem (.ambiguousCandidate lastName role (several.map (·.fullName))))

def grant (participants : List Participant) (lastName role : String) : List Participant :=
  participants.map fun p => if p.lastName == lastName then { p with roles := p.roles ++ [role] } else p

def assignColumn (headers : Line) (column : Nat) (cell : String) : Assigning Bool := do
  let lastName := Text.trim cell
  if lastName.isEmpty then return false
  let role := Text.trim (headers.value column)
  let participants ← get
  let p ← ExceptT.mk (pure (onlyNamed participants lastName role))
  if p.roles.contains role then return false
  set (grant participants lastName role)
  return true

def assignColumns (headers : Line) : Nat → List String → Assigning Nat
  | _, [] => pure 0
  | column, cell :: rest => do
    let new ← assignColumn headers column cell
    let others ← assignColumns headers (column + 1) rest
    return (if new then others + 1 else others)

def assignRoles (lines : List Line) (nameRow headerRow : Int) (sheet : String) : Assigning Nat := do
  match lineAt? lines nameRow with
  | none => throw (.problem (.missingRoleRow "name" nameRow sheet))
  | some names =>
    match lineAt? lines headerRow with
    | none => throw (.problem (.missingRoleRow "header" headerRow sheet))
    | some headers => assignColumns headers 0 names.values

def checkRoles (participants : List Participant) : Except Fault Unit :=
  participants.forM fun p => p.roles.forM fun role =>
    if (Role.ofLabel? role).isSome then .ok ()
    else .error (.problem (.unknownRole role p.fullName))

end SiteVisit
