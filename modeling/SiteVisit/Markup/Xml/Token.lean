import SiteVisit.Markup.Xml.Chars
import SiteVisit.Text.Digit
import SiteVisit.Text.Lines

/-!
The tokens of a document's content, read character by character. Comments and processing
instructions leave no token; references and marked sections stand for their characters.

Reading is a fold over the characters, so reading a text in two parts is the same as reading it
at once.
-/

namespace SiteVisit.Markup.Xml

structure QName where
  space : List Char
  base : List Char
  deriving DecidableEq, Repr

def isName : List Char → Bool
  | [] => false
  | c :: cs => isNameStart c && cs.all isNameChar

def QName.ofChars? (cs : List Char) : Option QName :=
  match cs.span (· != ':') with
  | (base, []) => if isName base then some ⟨[], base⟩ else none
  | (space, _ :: base) => if isName space && isName base then some ⟨space, base⟩ else none

inductive Token
  | text (c : Char) : Token
  | opening (name : QName) (attributes : List (QName × List Char)) : Token
  | closing (name : QName) : Token
  deriving DecidableEq, Repr

structure Tag where
  name : QName
  attributes : List (QName × List Char) := []
  deriving DecidableEq, Repr

structure Value where
  tag : Tag
  name : QName
  mark : Char
  chars : List Char := []
  deriving DecidableEq, Repr

inductive State
  /-- Between tags, after up to two closing brackets. -/
  | content (brackets : Nat) : State
  /-- After an ampersand, in content or in an attribute value. -/
  | reference (value : Option Value) (chars : List Char) : State
  | less : State
  | startName (chars : List Char) : State
  /-- In a start tag, where an attribute may begin after a blank. -/
  | inTag (tag : Tag) (spaced : Bool) : State
  | attributeName (tag : Tag) (chars : List Char) : State
  | beforeEquals (tag : Tag) (name : QName) : State
  | beforeValue (tag : Tag) (name : QName) : State
  | inValue (value : Value) : State
  | slash (tag : Tag) : State
  | endName (chars : List Char) : State
  | afterEndName (name : QName) : State
  /-- After an exclamation mark. -/
  | bang (chars : List Char) : State
  | comment (dashes : Nat) : State
  | section (brackets : Nat) : State
  | target (chars : List Char) : State
  /-- After a question mark that ends an instruction of a target alone. -/
  | closingTarget : State
  | instruction (question : Bool) : State
  deriving DecidableEq, Repr

def number? (base : Nat) (digit? : Char → Option Nat) : List Char → Option Nat
  | [] => none
  | cs => cs.foldlM (fun n c => (digit? c).map (base * n + ·)) 0

def charOfNumber? (n : Nat) : Option Char :=
  if h : n.isValidChar then
    let c := Char.ofNatAux n h
    if isXmlChar c then some c else none
  else none

def referenced? : List Char → Option Char
  | '#' :: 'x' :: cs => (number? 16 Text.hexDigit? cs).bind charOfNumber?
  | '#' :: cs => (number? 10 Text.asciiDigit? cs).bind charOfNumber?
  | cs =>
    if cs = ['l', 't'] then some '<'
    else if cs = ['g', 't'] then some '>'
    else if cs = ['a', 'm', 'p'] then some '&'
    else if cs = ['q', 'u', 'o', 't'] then some '"'
    else if cs = ['a', 'p', 'o', 's'] then some '\''
    else none

def isTarget (cs : List Char) : Bool :=
  isName cs && cs.map Char.toLower != ['x', 'm', 'l']

def State.afterTag (tag : Tag) : Char → Option (State × List Token)
  | '>' => some (.content 0, [.opening tag.name tag.attributes])
  | '/' => some (.slash tag, [])
  | c => if isSpace c then some (.inTag tag true, []) else none

def State.step : State → Char → Option (State × List Token)
  | .content brackets, c =>
    if c == '<' then some (.less, [])
    else if c == '&' then some (.reference none [], [])
    else if c == ']' then some (.content (min 2 (brackets + 1)), [.text c])
    else if c == '>' && brackets == 2 then none
    else some (.content 0, [.text c])
  | .reference value chars, c =>
    if c == ';' then
      (referenced? chars.reverse).map fun r =>
        match value with
        | none => (.content 0, [.text r])
        | some v => (.inValue { v with chars := r :: v.chars }, [])
    else some (.reference value (c :: chars), [])
  | .less, c =>
    if c == '/' then some (.endName [], [])
    else if c == '!' then some (.bang [], [])
    else if c == '?' then some (.target [], [])
    else some (.startName [c], [])
  | .startName chars, c =>
    if isSpace c || c == '/' || c == '>' then
      (QName.ofChars? chars.reverse).bind fun name => State.afterTag { name } c
    else some (.startName (c :: chars), [])
  | .inTag tag spaced, c =>
    if isSpace c || c == '/' || c == '>' then State.afterTag tag c
    else if spaced then some (.attributeName tag [c], []) else none
  | .attributeName tag chars, c =>
    if isSpace c then (QName.ofChars? chars.reverse).map fun name => (.beforeEquals tag name, [])
    else if c == '=' then
      (QName.ofChars? chars.reverse).map fun name => (.beforeValue tag name, [])
    else some (.attributeName tag (c :: chars), [])
  | .beforeEquals tag name, c =>
    if isSpace c then some (.beforeEquals tag name, [])
    else if c == '=' then some (.beforeValue tag name, []) else none
  | .beforeValue tag name, c =>
    if isSpace c then some (.beforeValue tag name, [])
    else if c == '"' || c == '\'' then some (.inValue { tag, name, mark := c }, []) else none
  | .inValue v, c =>
    if c == v.mark then
      some (.inTag { v.tag with attributes := v.tag.attributes ++ [(v.name, v.chars.reverse)] } false,
        [])
    else if c == '<' then none
    else if c == '&' then some (.reference (some v) [], [])
    else some (.inValue { v with chars := (if isSpace c then ' ' else c) :: v.chars }, [])
  | .slash tag, c =>
    if c == '>' then
      some (.content 0, [.opening tag.name tag.attributes, .closing tag.name]) else none
  | .endName chars, c =>
    if isSpace c then (QName.ofChars? chars.reverse).map fun name => (.afterEndName name, [])
    else if c == '>' then
      (QName.ofChars? chars.reverse).map fun name => (.content 0, [.closing name])
    else some (.endName (c :: chars), [])
  | .afterEndName name, c =>
    if isSpace c then some (.afterEndName name, [])
    else if c == '>' then some (.content 0, [.closing name]) else none
  | .bang chars, c =>
    let chars := c :: chars
    if chars == ['-', '-'] then some (.comment 0, [])
    else if chars == "[CDATA[".toList.reverse then some (.section 0, [])
    else if "[CDATA[".toList.reverse.length ≤ chars.length then none
    else some (.bang chars, [])
  | .comment dashes, c =>
    if dashes == 2 then (if c == '>' then some (.content 0, []) else none)
    else some (.comment (if c == '-' then dashes + 1 else 0), [])
  | .section brackets, c =>
    if c == ']' then
      if brackets == 2 then some (.section 2, [.text ']']) else some (.section (brackets + 1), [])
    else if c == '>' && brackets == 2 then some (.content 0, [])
    else some (.section 0, List.replicate brackets (.text ']') ++ [.text c])
  | .target chars, c =>
    if c == '?' then (if isTarget chars.reverse then some (.closingTarget, []) else none)
    else if isSpace c then (if isTarget chars.reverse then some (.instruction false, []) else none)
    else some (.target (c :: chars), [])
  | .closingTarget, c => if c == '>' then some (.content 0, []) else none
  | .instruction question, c =>
    if question && c == '>' then some (.content 0, [])
    else some (.instruction (c == '?'), [])

def State.run (s : State) : List Char → Option (State × List Token)
  | [] => some (s, [])
  | c :: cs => do
    let (s, tokens) ← s.step c
    let (s, more) ← s.run cs
    return (s, tokens ++ more)

def tokens? (cs : List Char) : Option (List Token) :=
  if cs.all isXmlChar then
    match State.run (.content 0) (Text.unixLines cs) with
    | some (.content _, tokens) => some tokens
    | _ => none
  else none

end SiteVisit.Markup.Xml
