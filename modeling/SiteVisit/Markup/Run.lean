import SiteVisit.Fault
import SiteVisit.Markup.Xml.Tree

/-!
The markup of rich text cells. A cell is a row of runs; a run is an element that holds text
elements, and property elements that give a style to the text after them in the same run. Only
three properties matter, and they may stand at any depth. Blanks between elements do not count.

Reading goes through the nodes in document order, so the first offending node decides the error.
-/

namespace SiteVisit.Markup

open Xml (Node)

def runName : List Char := ['r']

def textName : List Char := ['t']

def propertiesName : List Char := ['r', 'P', 'r']

def Style.enable (style : Style) (name : List Char) : Style :=
  if name = ['b'] then { style with bold := true }
  else if name = ['i'] then { style with italics := true }
  else if name = ['u'] then { style with underline := true }
  else style

mutual

def Style.within (style : Style) : Node → Style
  | .text _ => style
  | .element name children => Style.withinAll (style.enable name) children

def Style.withinAll (style : Style) : List Node → Style
  | [] => style
  | node :: nodes => Style.withinAll (Style.within style node) nodes

end

def firstElement? : List Node → Option (List Char)
  | [] => none
  | .element name _ :: _ => some name
  | .text _ :: nodes => firstElement? nodes

def characters : List Node → List Char
  | [] => []
  | .text cs :: nodes => cs ++ characters nodes
  | .element _ _ :: nodes => characters nodes

def unexpectedTag {α : Type} (name : List Char) (context : String) : Except MarkupProblem α :=
  .error (.unexpectedTag (String.ofList name) context)

/-- Accepts blanks where no text belongs. -/
def acceptBlank (context : String) (cs : List Char) : Except MarkupProblem Unit :=
  if (Text.trimChars cs).isEmpty then .ok ()
  else .error (.unexpectedText (String.ofList cs) context)

def runsOfText (style : Style) (content : List Node) : Except MarkupProblem (List TextRun) :=
  match firstElement? content with
  | some name => unexpectedTag name "text"
  | none =>
    match characters content with
    | [] => .ok []
    | cs => .ok [⟨String.ofList cs, style⟩]

def runsOfRun (style : Style) : List Node → Except MarkupProblem (List TextRun)
  | [] => .ok []
  | .text cs :: nodes => do
    acceptBlank "run" cs
    runsOfRun style nodes
  | .element name content :: nodes =>
    if name = propertiesName then runsOfRun (style.withinAll content) nodes
    else if name = textName then do
      let runs ← runsOfText style content
      return runs ++ (← runsOfRun style nodes)
    else unexpectedTag name "run"

def runsOfNodes : List Node → Except MarkupProblem (List TextRun)
  | [] => .ok []
  | .text cs :: nodes => do
    acceptBlank "top level" cs
    runsOfNodes nodes
  | .element name content :: nodes =>
    if name = runName then do
      let runs ← runsOfRun {} content
      return runs ++ (← runsOfNodes nodes)
    else if name = textName then do
      let runs ← runsOfText {} content
      return runs ++ (← runsOfNodes nodes)
    else unexpectedTag name "top level"

def readRuns (markup : String) : Except MarkupProblem (List TextRun) :=
  match Xml.nodes? markup.toList with
  | some nodes => runsOfNodes nodes
  | none => .error .malformed

def writeChar (c : Char) : List Char :=
  if c == '&' then "&amp;".toList
  else if c == '<' then "&lt;".toList
  else if c == '>' then "&gt;".toList
  else [c]

def writeChars (cs : List Char) : List Char := cs.flatMap writeChar

def Style.write (style : Style) : List Char :=
  let flags := (if style.bold then "<b />".toList else []) ++
    (if style.italics then "<i />".toList else []) ++
    (if style.underline then "<u />".toList else [])
  if flags.isEmpty then [] else "<rPr>".toList ++ flags ++ "</rPr>".toList

def TextRun.write (run : TextRun) : List Char :=
  let text := writeChars run.text.toList
  "<r>".toList ++ run.style.write ++
    (if text.isEmpty then "<t />".toList else "<t>".toList ++ text ++ "</t>".toList) ++
    "</r>".toList

def writeRuns (runs : List TextRun) : String := String.ofList (runs.flatMap TextRun.write)

end SiteVisit.Markup
