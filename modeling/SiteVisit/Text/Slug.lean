import SiteVisit.Text.Blank
import SiteVisit.Text.Case

namespace SiteVisit.Text

def isSlugChar (c : Char) : Bool := ('a' ≤ c && c ≤ 'z') || ('0' ≤ c && c ≤ '9') || c == ' '

def slugChars (cs : List Char) : List Char :=
  squeeze '-' (trimChars ((cs.flatMap lower).filter isSlugChar))

def slug (s : String) : String := String.ofList (slugChars s.toList)

end SiteVisit.Text
