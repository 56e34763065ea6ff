import SiteVisit.Decimal.Binary64
import SiteVisit.Text.Digit

/-!
The shortest decimal that reads back as a given floating point number, and the way it is
written: positional from 0.0001 up to below 10^16, otherwise with an exponent of two places or
more.
-/

namespace SiteVisit.Decimal

/-- Three values in one unit: the least and the greatest that round to the number, and the
number itself. The ends belong to the interval when `closed`. -/
structure Interval where
  low : Nat
  value : Nat
  high : Nat
  unit : Nat
  closed : Bool

/-- The decimals that read back as `m * 2 ^ power`. Below a power of two the next number is only
half as far away. -/
def Interval.around (m : Nat) (power : Int) : Interval :=
  let (p, u) := Binary64.scaled 1 4 (-power)
  let below := if m == Binary64.leastMantissa && Binary64.minPower < power then 1 else 2
  ⟨(4 * m - below) * p, 4 * m * p, (4 * m + 2) * p, u, m % 2 == 0⟩

def Interval.holds (i : Interval) (k : Nat) (e : Int) : Bool :=
  let (point, factor) := match e with
    | .ofNat e => (k * Nat.pow 10 e * i.unit, 1)
    | .negSucc e => (k * i.unit, Nat.pow 10 (e + 1))
  if i.closed then i.low * factor ≤ point && point ≤ i.high * factor
  else i.low * factor < point && point < i.high * factor

def Interval.onGrid (i : Interval) (e : Int) : Nat × Nat × Nat :=
  let (n, d) := match e with
    | .ofNat e => (i.value, i.unit * Nat.pow 10 e)
    | .negSucc e => (i.value * Nat.pow 10 (e + 1), i.unit)
  (n / d, 2 * (n % d), d)

def Interval.pick? (i : Interval) (e : Int) : Option Nat :=
  let (k, r, d) := i.onGrid e
  match i.holds k e, i.holds (k + 1) e with
  | true, true => some (if r < d || (r == d && k % 2 == 0) then k else k + 1)
  | true, false => some k
  | false, true => some (k + 1)
  | false, false => none

def Interval.magnitude (i : Interval) : Int :=
  if i.unit ≤ i.value then ((Nat.toDigits 10 (i.value / i.unit)).length : Int) - 1
  else
    match (List.range 400).find? fun s => i.unit ≤ i.value * Nat.pow 10 s with
    | some s => -(s : Int)
    | none => -400

def shortest (m : Nat) (power : Int) : Nat × Int :=
  let i := Interval.around m power
  let top := i.magnitude
  match (List.range 18).findSome? fun (n : Nat) => (i.pick? (top - n)).map (·, top - n) with
  | some found => found
  | none => (m, 0)

def dropZeros : List Char → List Char × Nat
  | cs => let rest := cs.reverse.dropWhile (· == '0'); (rest.reverse, cs.length - rest.length)

def layOut (digits : List Char) (e : Int) : List Char :=
  let point := e + digits.length
  if -4 < point && point ≤ 16 then
    match point with
    | .ofNat 0 => ['0', '.'] ++ digits
    | .ofNat p =>
      if digits.length ≤ p then digits ++ List.replicate (p - digits.length) '0' ++ ['.', '0']
      else digits.take p ++ '.' :: digits.drop p
    | .negSucc z => ['0', '.'] ++ List.replicate (z + 1) '0' ++ digits
  else
    let exponent := point - 1
    let mark := if exponent < 0 then ['e', '-'] else ['e', '+']
    let places := (Text.padded 2 exponent.natAbs).toList
    match digits with
    | [d] => d :: mark ++ places
    | d :: rest => d :: '.' :: rest ++ mark ++ places
    | [] => []

def Binary64.text : Binary64 → String
  | .nan => "nan"
  | .infinite negative => if negative then "-inf" else "inf"
  | .finite negative m power =>
    let sign := if negative then ['-'] else []
    if m == 0 then String.ofList (sign ++ ['0', '.', '0']) else
    let (k, e) := shortest m power
    let (digits, zeros) := dropZeros (Nat.toDigits 10 k)
    String.ofList (sign ++ layOut digits (e + zeros))

end SiteVisit.Decimal
