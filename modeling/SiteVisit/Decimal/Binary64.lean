namespace SiteVisit.Decimal

inductive Binary64
  | nan : Binary64
  | infinite (negative : Bool) : Binary64
  | finite (negative : Bool) (mantissa : Nat) (power : Int) : Binary64
  deriving DecidableEq, Repr

namespace Binary64

def minPower : Int := -1074

def maxPower : Int := 971

def leastMantissa : Nat := Nat.pow 2 52

def mantissaBound : Nat := Nat.pow 2 53

def roundDiv (num den : Nat) : Nat :=
  let q := num / den
  let r := 2 * (num % den)
  if r < den || (r == den && q % 2 == 0) then q else q + 1

def scaled (num den : Nat) (power : Int) : Nat × Nat :=
  match power with
  | .ofNat p => (num, den * Nat.pow 2 p)
  | .negSucc p => (num * Nat.pow 2 (p + 1), den)

def ofRatio (negative : Bool) (num den : Nat) : Binary64 :=
  if num == 0 then .finite negative 0 minPower else
  let guess : Int := (num.log2 : Int) - (den.log2 : Int) - 52
  let (n, d) := scaled num den guess
  let fitted :=
    if n / d < leastMantissa then guess - 1
    else if n / d < mantissaBound then guess else guess + 1
  let power := max fitted minPower
  let (n, d) := scaled num den power
  let m := roundDiv n d
  let (m, power) := if m == mantissaBound then (leastMantissa, power + 1) else (m, power)
  if maxPower < power then .infinite negative else .finite negative m power

def ofDecimal (negative : Bool) (digits : Nat) : Int → Binary64
  | .ofNat e => ofRatio negative (digits * Nat.pow 10 e) 1
  | .negSucc e => ofRatio negative digits (Nat.pow 10 (e + 1))

def truncate : Binary64 → Option Int
  | .nan | .infinite _ => none
  | .finite negative m power =>
    let (n, d) := scaled m 1 (-power)
    some (if negative then -(n / d : Nat) else (n / d : Nat))

def isIntegral : Binary64 → Bool
  | .nan | .infinite _ => false
  | .finite _ m power => let (n, d) := scaled m 1 (-power); n % d == 0

def ratio? : Binary64 → Option (Int × Nat)
  | .nan | .infinite _ => none
  | .finite negative m power =>
    let (n, d) := scaled m 1 (-power)
    some (if negative then -(n : Int) else n, d)

def isZero : Binary64 → Bool
  | .finite _ m _ => m == 0
  | _ => false

end Binary64
end SiteVisit.Decimal
