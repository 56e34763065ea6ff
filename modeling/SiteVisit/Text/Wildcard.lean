/-!
Search patterns: a percent sign stands for any text and an underscore for any one character.
Other characters stand for themselves, ASCII letters in either case. Patterns and texts end at a
null character.
-/

namespace SiteVisit.Text

def suffixes : List Char → List (List Char)
  | [] => [[]]
  | c :: cs => (c :: cs) :: suffixes cs

def afterFirst (wanted : Char → Bool) (rests : List (List Char)) : List (List Char) :=
  rests.filterMap fun
    | [] => none
    | c :: cs => if wanted c then some cs else none

/-- What can be left when a pattern has been matched against the front of a text. The choices are
suffixes of one text, the longest first. -/
def matchFront : List Char → List (List Char) → List (List Char)
  | [], rests => rests
  | p :: ps, rests =>
    if p == '%' then matchFront ps (rests.head?.elim [] suffixes)
    else if p == '_' then matchFront ps (afterFirst (fun _ => true) rests)
    else matchFront ps (afterFirst (fun c => c.toLower == p.toLower) rests)

def upToNull (s : String) : List Char := s.toList.takeWhile (· != '\x00')

def isLike (pattern text : String) : Bool :=
  (matchFront (upToNull pattern) [upToNull text]).contains []

end SiteVisit.Text
