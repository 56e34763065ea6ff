import SiteVisit.Markup.TextRun
import SiteVisit.Text.Digit
import SiteVisit.Text.Quoted
import SiteVisit.Text.Units

namespace SiteVisit

structure RoleRun where
  text : String
  style : Option Markup.Style := none
  deriving DecidableEq, Repr

namespace RoleRun

def encodeUnit (u : Nat) : List Char :=
  if u == '"'.toNat then ['\\', '"']
  else if u == '\\'.toNat then ['\\', '\\']
  else if u == '\n'.toNat then ['\\', 'n']
  else if u == '\r'.toNat then ['\\', 'r']
  else if u == '\t'.toNat then ['\\', 't']
  else if u == 8 then ['\\', 'b']
  else if u == 12 then ['\\', 'f']
  else if ' '.toNat ≤ u && u ≤ '~'.toNat then [Char.ofNat u]
  else '\\' :: 'u' :: Text.hex 4 u

def encodeText (cs : List Char) : List Char :=
  '"' :: (cs.flatMap Text.units).flatMap encodeUnit ++ ['"']

def encodeFlag (b : Bool) : List Char := (if b then "true" else "false").toList

def encodeRun (r : RoleRun) : List Char :=
  "\x7b\"text\": ".toList ++ encodeText r.text.toList ++
    (match r.style with
    | none => []
    | some s =>
      ", \"bold\": ".toList ++ encodeFlag s.bold ++ ", \"italics\": ".toList ++
        encodeFlag s.italics ++ ", \"underline\": ".toList ++ encodeFlag s.underline) ++
    ['\x7d']

def encodeRuns (runs : List RoleRun) : List Char :=
  '[' :: ", ".toList.intercalate (runs.map encodeRun) ++ [']']

def encode (runs : List RoleRun) : String := String.ofList (encodeRuns runs)

def hexUnit? (a b c d : Char) : Option Nat := do
  let digits ← [a, b, c, d].mapM Text.hexDigit?
  return digits.foldl (16 * · + ·) 0

def escaped? (c : Char) : Option Nat :=
  match c with
  | '"' | '\\' | '/' => some c.toNat
  | 'n' => some 10
  | 'r' => some 13
  | 't' => some 9
  | 'b' => some 8
  | 'f' => some 12
  | _ => none

def decodeUnits? : List Char → Option (List Nat × List Char)
  | '"' :: rest => some ([], rest)
  | '\\' :: 'u' :: a :: b :: c :: d :: rest => do
    let u ← hexUnit? a b c d
    let (us, rest) ← decodeUnits? rest
    return (u :: us, rest)
  | '\\' :: c :: rest => do
    let u ← escaped? c
    let (us, rest) ← decodeUnits? rest
    return (u :: us, rest)
  | c :: rest => do
    let (us, rest) ← decodeUnits? rest
    return (Text.units c ++ us, rest)
  | [] => none

def expect? : List Char → List Char → Option (List Char)
  | [], rest => some rest
  | e :: es, c :: rest => if e == c then expect? es rest else none
  | _ :: _, [] => none

def decodeFlag? (cs : List Char) : Option (Bool × List Char) :=
  match expect? "true".toList cs with
  | some rest => some (true, rest)
  | none => (expect? "false".toList cs).map (false, ·)

def decodeNamed? (name : String) (cs : List Char) : Option (Bool × List Char) := do
  decodeFlag? (← expect? (", \"" ++ name ++ "\": ").toList cs)

def decodeStyle? (cs : List Char) : Option (Markup.Style × List Char) := do
  let (bold, cs) ← decodeNamed? "bold" cs
  let (italics, cs) ← decodeNamed? "italics" cs
  let (underline, cs) ← decodeNamed? "underline" cs
  return ({ bold, italics, underline }, cs)

def decodeRun? (cs : List Char) : Option (RoleRun × List Char) := do
  let (units, cs) ← decodeUnits? (← expect? "\x7b\"text\": \"".toList cs)
  let text := String.ofList (← Text.ofUnits? units)
  match expect? ['\x7d'] cs with
  | some rest => return (⟨text, none⟩, rest)
  | none =>
    let (style, cs) ← decodeStyle? cs
    return (⟨text, some style⟩, ← expect? ['\x7d'] cs)

/-- The runs after the first one, up to the closing bracket. The number bounds the runs. -/
def decodeMore? : Nat → List Char → Option (List RoleRun)
  | _, [']'] => some []
  | n + 1, ',' :: ' ' :: cs => do
    let (r, cs) ← decodeRun? cs
    return r :: (← decodeMore? n cs)
  | _, _ => none

def decode? (s : String) : Option (List RoleRun) :=
  match s.toList with
  | ['[', ']'] => some []
  | '[' :: cs => do
    let (r, cs) ← decodeRun? cs
    return r :: (← decodeMore? cs.length cs)
  | _ => none

end RoleRun
end SiteVisit
