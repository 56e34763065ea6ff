import SiteVisit.Yaml.Scalar

namespace SiteVisit.Yaml

structure Quote where
  chars : List Char := []
  blanks : List Char := []
  breaks : Nat := 0

namespace Quote

def settle (q : Quote) : Quote :=
  if q.breaks == 0 then { chars := q.blanks ++ q.chars }
  else if q.breaks == 1 then { chars := ' ' :: q.chars }
  else { chars := List.replicate (q.breaks - 1) '\n' ++ q.chars }

def push (q : Quote) (c : Char) : Quote :=
  let q := q.settle
  { q with chars := c :: q.chars }

def blank (q : Quote) (c : Char) : Quote :=
  if q.breaks == 0 then { q with blanks := c :: q.blanks } else q

def lineEnd (q : Quote) : Quote := { q with blanks := [], breaks := q.breaks + 1 }

def text (q : Quote) : List Char := q.settle.chars.reverse

end Quote

def single? (q : Quote) : List Char → Option (List Char × List Char)
  | [] => none
  | '\'' :: '\'' :: cs => single? (q.push '\'') cs
  | '\'' :: cs => some (q.text, cs)
  | '\n' :: cs => single? q.lineEnd cs
  | c :: cs => single? (if isGap c then q.blank c else q.push c) cs

def escapes : List (Char × Nat) := [
  ('0', 0), ('a', 7), ('b', 8), ('t', 9), ('\t', 9), ('n', 10), ('v', 11), ('f', 12), ('r', 13),
  ('e', 27), (' ', 32), ('"', 34), ('\\', 92), ('/', 47), ('N', 0x85), ('_', 0xa0), ('L', 0x2028),
  ('P', 0x2029)]

def codeLength : List (Char × Nat) := [('x', 2), ('u', 4), ('U', 8)]

def coded? (cs : List Char) : Option Char :=
  let n := number 16 cs
  if cs.all isHex && n.isValidChar then some (Char.ofNat n) else none

inductive Escape
  | none : Escape
  | begun : Escape
  | code (left : Nat) (digits : List Char) : Escape
  /-- After an escaped line end, blanks do not count. -/
  | joined : Escape

def double? (q : Quote) : Escape → List Char → Option (List Char × List Char)
  | _, [] => none
  | .none, c :: cs =>
    if c == '"' then some (q.text, cs)
    else if c == '\\' then double? q .begun cs
    else if c == '\n' then double? q.lineEnd .none cs
    else if isGap c then double? (q.blank c) .none cs
    else double? (q.push c) .none cs
  | .begun, c :: cs =>
    if c == '\n' then double? { q.settle with breaks := 0 } .joined cs
    else
      match escapes.lookup c, codeLength.lookup c with
      | some n, _ => double? (q.push (Char.ofNat n)) .none cs
      | _, some (left + 1) => double? q (.code left []) cs
      | _, _ => Option.none
  | .code left digits, c :: cs =>
    match left with
    | left + 1 => double? q (.code left (c :: digits)) cs
    | 0 => (coded? (c :: digits).reverse).bind fun c => double? (q.push c) .none cs
  | .joined, c :: cs =>
    if isGap c then double? q .joined cs
    else if c == '"' then some (q.text, cs)
    else if c == '\\' then double? q .begun cs
    else if c == '\n' then double? q.lineEnd .none cs
    else double? (q.push c) .none cs

def quoted? : List Char → Option (List Char × List Char)
  | '\'' :: cs => single? {} cs
  | '"' :: cs => double? {} .none cs
  | _ => none

def isSpace (c : Char) : Bool := c == ' ' || c == '\n'

def endsHere : List Char → Bool
  | [] => true
  | c :: _ => c == ' ' || c == '\t' || c == '\n'

def indicators : List Char := "-?:,[]\x7b\x7d#&*!|>'\"%@`".toList

def beginsPlain (inFlow : Bool) : List Char → Bool
  | [] => false
  | c :: cs =>
    !isSpace c && c != '\t' && (!indicators.contains c ||
      (!endsHere cs && (c == '-' || (!inFlow && (c == '?' || c == ':')))))

def flowMarks : List Char := ",[]\x7b\x7d".toList

/-- A plain scalar inside of brackets; line ends in it stand for spaces. The flag says that a
blank stands before. -/
def flowPlain (chars : List Char) (spaced : Bool) : List Char → List Char × List Char
  | [] => (chars, [])
  | c :: cs =>
    if flowMarks.contains c || c == '?' then (chars, c :: cs)
    else if c == ':' && (endsHere cs || (cs.head?.any flowMarks.contains)) then (chars, c :: cs)
    else if c == '#' && spaced then (chars, c :: cs)
    else if c == '\t' then (chars, c :: cs)
    else if isSpace c then flowPlain chars true cs
    else flowPlain (c :: (if spaced then ' ' :: chars else chars)) false cs

def skipFlow (inComment : Bool) : List Char → List Char
  | [] => []
  | c :: cs =>
    if inComment then skipFlow (c != '\n') cs
    else if isSpace c then skipFlow false cs
    else if c == '#' then skipFlow true cs
    else c :: cs

def keyText : Datum → Option String
  | .list _ => none
  | .record _ _ => none
  | v => some v.shown

def malformed {α : Type} : Except Unreadable α := .error .malformed

def flowScalar (cs : List Char) : Except Unreadable (Datum × List Char) :=
  match cs with
  | c :: _ =>
    if c == '\'' || c == '"' then
      match quoted? cs with
      | some (text, rest) => .ok (.text (String.ofList text), rest)
      | none => malformed
    else if beginsPlain true cs then do
      let (chars, rest) := flowPlain [] false cs
      return (← resolve chars.reverse, rest)
    else malformed
  | [] => malformed

def afterItem (close : Char) (cs : List Char) : Except Unreadable (List Char) :=
  match skipFlow false cs with
  | ',' :: cs => .ok (skipFlow false cs)
  | c :: cs => if c == close then .ok (c :: cs) else malformed
  | [] => malformed

mutual

def flowNode : Nat → List Char → Except Unreadable (Datum × List Char)
  | 0, _ => malformed
  | n + 1, '[' :: cs => do
    let (items, rest) ← flowItems n (skipFlow false cs)
    return (.list items, rest)
  | n + 1, '\x7b' :: cs => do
    let (fields, rest) ← flowFields n (skipFlow false cs)
    return (.record (fieldsOf fields) [], rest)
  | _ + 1, cs => flowScalar cs

def flowItems : Nat → List Char → Except Unreadable (List Datum × List Char)
  | 0, _ => malformed
  | _ + 1, ']' :: cs => .ok ([], cs)
  | n + 1, cs => do
    let (v, rest) ← flowNode n cs
    let (v, rest) ← match skipFlow false rest with
      -- a key with its value is a record of its own
      | ':' :: rest => do
        let (w, rest) ← flowValue n (skipFlow false rest)
        match keyText v with
        | some key => pure (Datum.record [(key, w)] [], rest)
        | none => malformed
      | rest => pure (v, rest)
    let (items, rest) ← flowItems n (← afterItem ']' rest)
    return (v :: items, rest)

def flowValue : Nat → List Char → Except Unreadable (Datum × List Char)
  | 0, _ => malformed
  | n + 1, cs =>
    match cs with
    | c :: _ => if c == ',' || c == ']' || c == '\x7d' then .ok (.null, cs) else flowNode n cs
    | [] => malformed

def flowFields : Nat → List Char → Except Unreadable (List (String × Datum) × List Char)
  | 0, _ => malformed
  | _ + 1, '\x7d' :: cs => .ok ([], cs)
  | n + 1, cs => do
    let (key, rest) ← flowNode n cs
    let (v, rest) ← match skipFlow false rest with
      | ':' :: rest => flowValue n (skipFlow false rest)
      | rest => pure (Datum.null, rest)
    match keyText key with
    | none => malformed
    | some key => do
      let (fields, rest) ← flowFields n (← afterItem '\x7d' rest)
      return ((key, v) :: fields, rest)

end

end SiteVisit.Yaml
