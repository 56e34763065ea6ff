import SiteVisit.Text.Separated

namespace SiteVisit.Text

def unixLines : List Char → List Char
  | [] => []
  | '\r' :: '\n' :: cs => '\n' :: unixLines cs
  | '\r' :: cs => '\n' :: unixLines cs
  | c :: cs => c :: unixLines cs

def lines (cs : List Char) : List (List Char) := splitAt '\n' cs

end SiteVisit.Text
