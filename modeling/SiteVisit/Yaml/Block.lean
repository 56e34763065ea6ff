import SiteVisit.Text.Lines
import SiteVisit.Yaml.Flow

/-!
Settings files: mappings and lists by indentation, with scalars and bracketed collections in
them. A text is looked at line by line; a line that has been read in part is a line that begins
further to the right. There are no anchors, merge keys, tags, directives,
block scalars or complex keys.
-/

namespace SiteVisit.Yaml

structure Line where
  indent : Nat
  chars : List Char
  deriving DecidableEq, Repr

def Line.ofChars (column : Nat) (cs : List Char) : Line :=
  ⟨column + (cs.takeWhile (· == ' ')).length, cs.dropWhile (· == ' ')⟩

def Line.isVoid (l : Line) : Bool := l.chars.isEmpty || l.chars.head? == some '#'

def skipVoid (lines : List Line) : List Line := lines.dropWhile Line.isVoid

def joined : List Line → List Char
  | [] => []
  | [l] => l.chars
  | l :: ls => l.chars ++ '\n' :: joined ls

def linesLeft (lines : List Line) (rest : List Char) : List Line :=
  let more := rest.count '\n'
  let here := rest.takeWhile (· != '\n')
  -- the column does not matter after a bracket or a mark, except that it is not the first
  Line.ofChars 1 here :: lines.drop (lines.length - more)

def Line.isDash (l : Line) : Bool :=
  match l.chars with
  | '-' :: rest => endsHere rest
  | _ => false

def plainChars (spaces : List Char) : List Char → List Char × List Char
  | [] => ([], [])
  | c :: cs =>
    if c == ' ' then plainChars (c :: spaces) cs
    else if c == '\t' || (c == ':' && endsHere cs) || (c == '#' && !spaces.isEmpty) then ([], c :: cs)
    else
      let (text, rest) := plainChars [] cs
      (spaces ++ c :: text, rest)

def key? (l : Line) : Option (Except Unreadable String × Line) :=
  match quoted? l.chars with
  | some (text, rest) =>
    let width := l.chars.length - rest.length
    if (l.chars.take width).contains '\n' then none
    else
      match rest.dropWhile (· == ' ') with
      | ':' :: after =>
        if endsHere after then
          some (.ok (String.ofList text), .ofChars (l.indent + l.chars.length - after.length) after)
        else none
      | _ => none
  | none =>
    if beginsPlain false l.chars then
      match plainChars [] l.chars with
      | (text, ':' :: after) =>
        some ((resolve text).bind fun v => (keyText v).elim malformed .ok,
          .ofChars (l.indent + l.chars.length - after.length) after)
      | _ => none
    else none

def plainMore (parent : Int) (breaks : Nat) : List Line → Except Unreadable (List Char × List Line)
  | [] => .ok ([], [])
  | l :: ls =>
    if l.chars.isEmpty then do
      let (text, rest) ← plainMore parent (breaks + 1) ls
      return (text, if text.isEmpty then l :: ls else rest)
    else if (l.indent : Int) ≤ parent || l.chars.head? == some '#' then .ok ([], l :: ls)
    else
      let gap := if breaks == 0 then [' '] else List.replicate breaks '\n'
      match plainChars [] l.chars with
      | (_, ':' :: _) => malformed
      | (_, '\t' :: _) => malformed
      | (text, []) => do
        let (more, rest) ← plainMore parent 0 ls
        return (gap ++ text ++ more, rest)
      | (text, _) => .ok (gap ++ text, ls)

def closed (lines : List Line) : Except Unreadable (List Line) :=
  match lines with
  | l :: ls => if l.isVoid then .ok ls else malformed
  | [] => .ok []

def leaf (parent : Int) (lines : List Line) : Except Unreadable (Datum × List Line) :=
  match lines with
  | [] => .ok (.null, [])
  | l :: ls =>
    match l.chars with
    | [] => malformed
    | c :: _ =>
      if c == '\'' || c == '"' then
        match quoted? (joined lines) with
        | some (text, rest) => do
          return (.text (String.ofList text), ← closed (linesLeft lines rest))
        | none => malformed
      else if c == '[' || c == '\x7b' then do
        let text := joined lines
        let (v, rest) ← flowNode (2 * text.length + 1) text
        return (v, ← closed (linesLeft lines rest))
      else if beginsPlain false l.chars then
        match plainChars [] l.chars with
        | (_, ':' :: _) => malformed
        | (_, '\t' :: _) => malformed
        | (text, []) => do
          let (more, rest) ← plainMore parent 0 ls
          return (← resolve (text ++ more), rest)
        | (text, _) => do return (← resolve text, ls)
      else malformed

mutual

/-- The value that stands further to the right than the collection around it; none is no value.
The number bounds how deep the reading can go. -/
def node : Nat → Int → List Line → Except Unreadable (Datum × List Line)
  | 0, _, _ => malformed
  | n + 1, parent, lines =>
    match skipVoid lines with
    | [] => .ok (.null, [])
    | l :: ls =>
      if (l.indent : Int) ≤ parent then .ok (.null, l :: ls)
      else if l.isDash then do
        let (items, rest) ← items n l.indent (l :: ls)
        return (.list items, rest)
      else if (key? l).isSome then do
        let (fields, rest) ← fields n l.indent (l :: ls)
        return (.record (fieldsOf fields) [], rest)
      else leaf parent (l :: ls)

def items : Nat → Nat → List Line → Except Unreadable (List Datum × List Line)
  | 0, _, _ => malformed
  | n + 1, indent, lines =>
    match skipVoid lines with
    | [] => .ok ([], [])
    | l :: ls =>
      if l.indent == indent && l.isDash then do
        let (v, rest) ← node n indent (Line.ofChars (indent + 1) (l.chars.drop 1) :: ls)
        let (more, rest) ← items n indent rest
        return (v :: more, rest)
      else if indent < l.indent then malformed
      else .ok ([], l :: ls)

def fields : Nat → Nat → List Line → Except Unreadable (List (String × Datum) × List Line)
  | 0, _, _ => malformed
  | n + 1, indent, lines =>
    match skipVoid lines with
    | [] => .ok ([], [])
    | l :: ls =>
      if l.indent < indent then .ok ([], l :: ls)
      else if indent < l.indent || l.isDash then malformed
      else
        match key? l with
        | none => malformed
        | some (key, after) => do
          let (v, rest) ←
            if after.isVoid then
              match skipVoid ls with
              | m :: ms =>
                if m.indent == indent && m.isDash then do
                  let (list, rest) ← items n indent (m :: ms)
                  pure (Datum.list list, rest)
                else node n indent (m :: ms)
              | [] => .ok (.null, [])
            else if after.isDash then malformed
            else leaf indent (after :: ls)
          let key ← key
          let (more, rest) ← fields n indent rest
          return ((key, v) :: more, rest)

end

def isReadable (c : Char) : Bool :=
  let n := c.toNat
  n == 9 || n == 10 || n == 13 || (0x20 ≤ n && n ≤ 0x7e) || n == 0x85 ||
    (0xa0 ≤ n && n != 0xfffe && n != 0xffff)

def isMarker (mark : List Char) (l : Line) : Bool :=
  l.indent == 0 && l.chars.take 3 == mark && endsHere (l.chars.drop 3)

def isAnyMarker (l : Line) : Bool := isMarker "---".toList l || isMarker "...".toList l

def document (lines : List Line) : Except Unreadable (List Line) := do
  let body ← match skipVoid lines with
    | l :: ls =>
      if isMarker "---".toList l then pure (Line.ofChars 3 (l.chars.drop 3) :: ls) else pure (l :: ls)
    | [] => pure []
  let after := skipVoid ((body.dropWhile (!isAnyMarker ·)).dropWhile (isMarker "...".toList))
  if after.isEmpty then return body.takeWhile (!isAnyMarker ·) else malformed

def read (text : String) : Except Unreadable Datum := do
  let cs := Text.unixLines text.toList
  if !cs.all isReadable then malformed
  let lines := (Text.lines cs).map (Line.ofChars 0)
  let body ← document lines
  let (v, rest) ← node (2 * cs.length + 2) (-1) body
  if (skipVoid rest).isEmpty then return v else malformed

end SiteVisit.Yaml
