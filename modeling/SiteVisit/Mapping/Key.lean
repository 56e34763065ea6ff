import SiteVisit.Mapping.Eval

namespace SiteVisit

namespace Datum

def ratio? : Datum → Option (Int × Nat)
  | .bool b => some (if b then 1 else 0, 1)
  | .int n => some (n, 1)
  | .float x => x.ratio?
  | _ => none

def sameKey (a b : Datum) : Bool :=
  match a.ratio?, b.ratio? with
  | some (m, c), some (n, d) => m * d == n * c
  | some _, none => false
  | none, some _ => false
  | none, none =>
    match a, b with
    | .null, .null => true
    | .text s, .text t => s == t
    | .float x, .float y => x == y && x != .nan
    | .date d, .date e => d == e
    | .wall v, .wall w => v == w
    | .clock t s, .clock u r => t == u && s == r
    | _, _ => false

def isKey : Datum → Bool
  | .list _ => false
  | .record _ _ => false
  | .rich _ => false
  | _ => true

end Datum

structure Key where
  value : Datum

instance : BEq Key := ⟨fun a b => a.value.sameKey b.value⟩

def Key.ofDatum (v : Datum) : Except Fault Key :=
  if v.isKey then .ok ⟨v⟩ else .error (.defect .wrongKind)

end SiteVisit
