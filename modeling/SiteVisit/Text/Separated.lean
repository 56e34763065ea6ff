import SiteVisit.Text.Blank

namespace SiteVisit.Text

def splitAt (sep : Char) : List Char → List (List Char)
  | [] => [[]]
  | c :: cs =>
    if c == sep then [] :: splitAt sep cs
    else match splitAt sep cs with
      | piece :: pieces => (c :: piece) :: pieces
      | [] => [[c]]

def commaItems (cs : List Char) : List (List Char) :=
  ((splitAt ',' cs).map trimChars).filter (!·.isEmpty)

def commaList (s : String) : List String := (commaItems s.toList).map String.ofList

def commaJoin (items : List String) : String := ", ".intercalate items

end SiteVisit.Text
