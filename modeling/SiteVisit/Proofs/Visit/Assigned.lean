import Mathlib.Algebra.GroupWithZero.Nat
import Mathlib.Data.List.GetD
import Mathlib.Data.List.Induction
import Mathlib.Order.Nat
import SiteVisit.Proofs.Text.Blank
import SiteVisit.Proofs.Visit.Roles

namespace SiteVisit

def Line.label (l : Line) (column : Nat) : String := Text.trim (l.value column)

section Count

variable {people after : List Participant} {headers : Line} {column : Nat}

end Count

section Stops

variable {people : List Participant} {name role : String} {f : Fault}

end Stops

section Outcome

variable {lines : List Line} {nameRow headerRow : Int} {sheet : String} {names headers : Line}

variable {people : List Participant}

end Outcome

end SiteVisit
