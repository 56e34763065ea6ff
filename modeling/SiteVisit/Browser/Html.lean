import SiteVisit.Fault
import SiteVisit.Store.Basic

namespace SiteVisit.Browser

def escapeChar : Char → List Char
  | '&' => "&amp;".toList
  | '<' => "&lt;".toList
  | '>' => "&gt;".toList
  | '"' => "&quot;".toList
  | '\'' => "&#x27;".toList
  | c => [c]

def escapeChars (cs : List Char) : List Char := cs.flatMap escapeChar

def escape (s : String) : String := String.ofList (escapeChars s.toList)

def tagged (tag : String) (cs : List Char) : List Char :=
  ('<' :: tag.toList ++ ['>']) ++ cs ++ ('<' :: '/' :: tag.toList ++ ['>'])

def taggedIf (b : Bool) (tag : String) (cs : List Char) : List Char :=
  if b then tagged tag cs else cs

/-- A run with its formatting: bold is innermost and underlining outermost. -/
def runChars (text : List Char) (style : Markup.Style) : List Char :=
  taggedIf style.underline "u" (taggedIf style.italics "em" (taggedIf style.bold "strong"
    (escapeChars text)))

def runsHtml (runs : List RoleRun) : String :=
  String.ofList (runs.flatMap fun r => runChars r.text.toList (r.style.getD {}))

def personLine (name title : String) : String :=
  "- " ++ escape name ++ "  <small>" ++ escape title ++ "</small>"

def peopleLines (people : List (String × String)) : String :=
  "\n".intercalate (people.map fun (name, title) => personLine name title)

def runOfRecord : Datum → Except Fault RoleRun
  | .record fields _ =>
    let flag (key : String) : Bool := ((field? fields key).map fun v => !v.isVoid).getD false
    .ok {
      text := ((field? fields "text").map Datum.shown).getD ""
      style := some { bold := flag "bold", italics := flag "italics", underline := flag "underline" } }
  | _ => .error (.defect .noSuchPart)

def textField (fields : List (String × Datum)) (key : String) : Except Fault String :=
  match (field? fields key).getD .null with
  | .text s => .ok s
  | v => if v.isVoid then .ok "" else .error (.defect .noSuchPart)

def personOfRecord : Datum → Except Fault (String × String)
  | .record fields _ => do return (← textField fields "name", ← textField fields "title")
  | _ => .error (.defect .noSuchPart)

end SiteVisit.Browser
