import SiteVisit.Text.Digit
import SiteVisit.Text.Case

/-!
Patterns that are searched for in a text: letters that stand for themselves, the begin and the
end of the text, any character but a line end, and any decimal digit.
-/

namespace SiteVisit.Text

structure Pattern where
  source : String
  ignoreCase : Bool := false
  deriving DecidableEq, Repr

namespace Pattern

inductive Atom
  | start : Atom
  | stop : Atom
  | any : Atom
  | digit : Atom
  | char (c : Char) : Atom
  deriving DecidableEq, Repr

def readAtoms : List Char → List Atom
  | [] => []
  | '\\' :: 'd' :: cs => .digit :: readAtoms cs
  | '\\' :: c :: cs => .char c :: readAtoms cs
  | '^' :: cs => .start :: readAtoms cs
  | '$' :: cs => .stop :: readAtoms cs
  | '.' :: cs => .any :: readAtoms cs
  | c :: cs => .char c :: readAtoms cs

def atoms (p : Pattern) : List Atom := readAtoms p.source.toList

def sameChar (ignoreCase : Bool) (a b : Char) : Bool :=
  a == b || (ignoreCase && foldCase a == foldCase b)

/-- Whether the atoms fit at this place; the flag says that it is the begin of the text. The end
of the text is also found before a line end that is its last character. -/
def fits (ignoreCase : Bool) : List Atom → Bool → List Char → Bool
  | [], _, _ => true
  | .start :: as, atStart, cs => atStart && fits ignoreCase as atStart cs
  | .stop :: as, atStart, cs => (cs.isEmpty || cs == ['\n']) && fits ignoreCase as atStart cs
  | .any :: as, _, c :: cs => c != '\n' && fits ignoreCase as false cs
  | .digit :: as, _, c :: cs => isDigit c && fits ignoreCase as false cs
  | .char a :: as, _, c :: cs => sameChar ignoreCase a c && fits ignoreCase as false cs
  | _ :: _, _, [] => false

def occurs (ignoreCase : Bool) (as : List Atom) : Bool → List Char → Bool
  | atStart, [] => fits ignoreCase as atStart []
  | atStart, c :: cs => fits ignoreCase as atStart (c :: cs) || occurs ignoreCase as false cs

def isIn (p : Pattern) (s : String) : Bool := occurs p.ignoreCase p.atoms true s.toList

end Pattern
end SiteVisit.Text
