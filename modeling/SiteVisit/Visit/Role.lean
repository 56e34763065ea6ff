namespace SiteVisit

inductive Role
  | chair : Role
  | standard1 : Role
  | standard2 : Role
  | standard3 : Role
  | standard4 : Role
  | standard5 : Role
  | standard6 : Role
  | standard7 : Role
  deriving DecidableEq, Repr

namespace Role

def all : List Role :=
  [chair, standard1, standard2, standard3, standard4, standard5, standard6, standard7]

def label : Role → String
  | chair => "Team Chair"
  | standard1 => "SI"
  | standard2 => "SII"
  | standard3 => "SIII"
  | standard4 => "SIV"
  | standard5 => "SV"
  | standard6 => "SVI"
  | standard7 => "SVII"

def key : Role → String
  | chair => "team_chair"
  | standard1 => "standard1_team_member"
  | standard2 => "standard2_team_member"
  | standard3 => "standard3_team_member"
  | standard4 => "standard4_team_member"
  | standard5 => "standard5_team_member"
  | standard6 => "standard6_team_member"
  | standard7 => "standard7_team_member"

def ofLabel? (label : String) : Option Role := all.find? (·.label == label)

end Role
end SiteVisit
