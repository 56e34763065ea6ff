import SiteVisit.Mapping.Spec

namespace SiteVisit

inductive Matcher
  | exactly (s : String) : Matcher
  | oneOf (texts : List String) : Matcher
  | fits (p : Text.Pattern) : Matcher
  | anything : Matcher
  deriving DecidableEq, Repr

def Datum.isText (v : Datum) (s : String) : Bool :=
  match v with
  | .text t => t == s
  | _ => false

def Matcher.accepts : Matcher → Datum → Except Fault Bool
  | .exactly s, v => .ok (v.isText s)
  | .oneOf texts, v => .ok (texts.any v.isText)
  | .fits p, .text s => .ok (p.isIn s)
  | .fits _, _ => .error (.defect .wrongKind)
  | .anything, _ => .ok true

def matchFirst : List (Matcher × Datum) → Transform
  | [], v => .error (.ofMapping (.unmappedValue v))
  | (m, output) :: rest, v => do
    if ← m.accepts v then return output
    matchFirst rest v

end SiteVisit
