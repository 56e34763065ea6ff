import SiteVisit.Calendar.Span
import SiteVisit.Documents.Block
import SiteVisit.Settings.Basic
import SiteVisit.Visit.Basic

namespace SiteVisit.Documents

def accentColor : String := "92002E"

def headerColor : String := "54585A"

def headerFill : String := "DDDDDD"

def timeColor : String := "C00000"

structure Title where
  first : String
  running : String
  deriving DecidableEq, Repr

def visitDates (v : Visit) (settings : DocumentSettings) : String :=
  if settings.visitDates.isEmpty then Calendar.describeSpan (v.meetings.map (·.day))
  else settings.visitDates

def headerRun (text : String) (points : Nat) (color : String) : Reporting Run := do
  return { ← textRun text with
    bold := some true, font := some "Barlow", halfPoints := some (2 * points), caps := true,
    color := some color }

def ruled : List Border :=
  [⟨"top", "single", some "6", some "8", some headerColor⟩,
    ⟨"bottom", "single", some "2", some "8", some headerColor⟩]

def firstPageLine (isFirst : Bool) (text : String) (points : Nat) (color : String) :
    Reporting Paragraph := do
  let run ← headerRun text points color
  return {
    runs := [run], style := if isFirst then some "Header" else none, align := some .center,
    spaceAfter := some 400, borders := ruled }

def pageNumber : Run where
  text := ""
  field := ["begin", "PAGE", "end"]
  bold := some true
  halfPoints := some 20
  color := some headerColor

def firstHeader (settings : DocumentSettings) (title : Title) (dates : String) :
    Reporting (List Paragraph) := do
  let institution ← firstPageLine true settings.institution 18 accentColor
  let visit ← firstPageLine false settings.visitTitle 14 headerColor
  let document ← firstPageLine false title.first 14 headerColor
  let dates ← if dates.isEmpty then pure [] else do
    let line ← firstPageLine false dates 14 headerColor
    pure [line]
  return [institution, visit, document] ++ dates

def runningHeader (settings : DocumentSettings) (title : Title) : Reporting (List Paragraph) := do
  let visit ← headerRun settings.visitTitle 10 headerColor
  let document ← headerRun title.running 10 accentColor
  let bar ← headerRun " | " 10 headerColor
  return [
    { runs := [{ visit with text := visit.text ++ "\t" }, document, bar, pageNumber]
      style := some "Header", align := some .left, spaceAfter := some 0, tabs := [(.right, 10800)] },
    {}]

def startDocument (settings : DocumentSettings) (title : Title) (dates : String) :
    Reporting Document := do
  let first ← firstHeader settings title dates
  let running ← runningHeader settings title
  return { firstHeader := first, runningHeader := running, sections := [{ ownHeader := true }] }

def zoomRun (v : Visit) (m : Meeting) : Reporting Run := do
  match v.room? m.zoomRoom with
  | none => throw (.problem (.missingZoomRoom m.zoomRoom m.name))
  | some room =>
    if room.hasLink then linkRun (Text.trim room.link) room.name
    else
      Reporting.warn ("zoom room without link: " ++ m.zoomRoom)
      textRun m.zoomRoom

def plainCell (width : Nat) (paragraph : Paragraph) : Cell := { paragraphs := [paragraph], width }

def textCell (width : Nat) (text : String) : Reporting Cell := do
  return plainCell width { runs := ← runsIfAny text }

def headerCell (width : Nat) (text : String) : Reporting Cell := do
  let run ← boldRun text
  return { paragraphs := [{ runs := [run], align := some .center }], width, fill := some headerFill }

def headerRow (widths : List Nat) (labels : List String) : Reporting Row := do
  return { cells := ← (widths.zip labels).mapM fun (width, label) => headerCell width label }

def spanningRow (widths : List Nat) (text : String) : Reporting Row := do
  let cell ← headerCell (widths.foldl (· + ·) 0) text
  return { cells := [{ cell with span := widths.length }] }

def timeCell (width : Nat) (text : String) (keepWithNext : Bool) : Reporting Cell := do
  return plainCell width { runs := ← runsIfAny text, align := some .right, keepWithNext }

def locationCell (width : Nat) (v : Visit) (m : Meeting) (showsZoom : Bool) : Reporting Cell := do
  let place : Paragraph := { runs := ← runsIfAny m.location }
  if showsZoom then
    let room ← zoomRun v m
    return { paragraphs := [place, { runs := [room] }], width }
  else return plainCell width place

end SiteVisit.Documents
