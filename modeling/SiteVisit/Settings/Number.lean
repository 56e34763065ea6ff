import SiteVisit.Fault
import SiteVisit.Text.Digit

namespace SiteVisit

/-- The digits of a number with single underscores between them. The flag says that a digit
stands before. -/
def groupedDigits? (afterDigit : Bool) : List Char → Option (List Char)
  | [] => if afterDigit then some [] else none
  | '_' :: cs => if afterDigit then groupedDigits? false cs else none
  | c :: cs => if Text.isDigit c then (groupedDigits? true cs).map (c :: ·) else none

def mostDigits : Nat := 4300

def isSpacing (c : Char) : Bool := Text.isBlank c && !(0x1c ≤ c.toNat && c.toNat ≤ 0x1f)

def wholeNumber? (text : String) : Option Int := do
  let cs := ((text.toList.dropWhile isSpacing).reverse.dropWhile isSpacing).reverse
  let (negative, cs) := match cs with
    | '-' :: cs => (true, cs)
    | '+' :: cs => (false, cs)
    | cs => (false, cs)
  let digits ← groupedDigits? false cs
  if mostDigits < digits.length then none
  let n : Int := Text.digitsValue digits
  return if negative then -n else n

/-- A setting as a whole number, or the default for a missing value and for anything that is not
a number. A fraction is cut off; there is no number for infinity. -/
def Datum.wholeOr (default : Int) : Datum → Except Fault Int
  | .bool b => .ok (if b then 1 else 0)
  | .int n => .ok n
  | .float (.infinite _) => .error (.defect .outOfRange)
  | .float x => .ok (x.truncate.getD default)
  | .text s => .ok ((wholeNumber? s).getD default)
  | _ => .ok default

end SiteVisit
