import SiteVisit.Documents.Full
import SiteVisit.Documents.Individual
import SiteVisit.Documents.Summary

namespace SiteVisit.Documents

inductive Kind
  | full : Kind
  | individual : Kind
  | summary : Kind
  | roles : Kind
  deriving DecidableEq, Repr

namespace Kind

def all : List Kind := [full, individual, summary, roles]

def name : Kind → String
  | full => "full"
  | individual => "individual"
  | summary => "summary"
  | roles => "roles"

def ofName? (name : String) : Option Kind := all.find? (·.name == name)

def standardFile : Kind → String
  | full => "full-itinerary.docx"
  | individual => "individual-itineraries.docx"
  | summary => "summary-itinerary.docx"
  | roles => "summary-itinerary-with-roles.docx"

def generate : Kind → Visit → DocumentSettings → Reporting Document
  | full => Full.generate
  | individual => Individual.generate
  | summary => Summary.generate false
  | roles => Summary.generate true

end Kind
end SiteVisit.Documents
