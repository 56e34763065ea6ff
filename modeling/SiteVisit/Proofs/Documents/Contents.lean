import SiteVisit.Documents.Kind
import SiteVisit.Proofs.Mapping.Groups
import SiteVisit.Proofs.Reports

namespace SiteVisit.Documents

open Reporting (Gives)

section Runs

def shownRun (s : String) : Run := { text := breakLines s }

def shownBold (s : String) : Run := { shownRun s with bold := some true }

def shownRuns (s : String) : List Run := if s.isEmpty then [] else [shownRun s]

def shownLink (target s : String) : Run :=
  { text := s, link := some target, color := some "0563C1", underline := some true }

variable (s : String)

theorem writable_gives : Gives (writable s) (fun _ => True) [] := by
  rw [writable]
  split
  · exact .pure trivial
  · exact .throw _

theorem textRun_gives : Gives (textRun s) (· = shownRun s) [] :=
  (writable_gives s).map fun _ _ => rfl

theorem boldRun_gives : Gives (boldRun s) (· = shownBold s) [] :=
  (textRun_gives s).map fun run hrun => by rw [hrun, shownBold]

theorem runsIfAny_gives : Gives (runsIfAny s) (· = shownRuns s) [] := by
  rw [runsIfAny, shownRuns]
  split
  · exact .pure rfl
  · exact (textRun_gives s).map fun run hrun => by rw [hrun]

theorem linkRun_gives (target : String) : Gives (linkRun target s) (· = shownLink target s) [] :=
  (writable_gives s).map fun _ _ => rfl

end Runs

section Zoom

variable (v : Visit) (m : Meeting)

def zoomEntry : Run :=
  match v.room? m.zoomRoom with
  | some room =>
    if room.hasLink then shownLink (Text.trim room.link) room.name else shownRun m.zoomRoom
  | none => shownRun m.zoomRoom

def linkless : Message := ⟨.warn, "zoom room without link: " ++ m.zoomRoom⟩

def isLinkless : Bool := (v.room? m.zoomRoom).any (!·.hasLink)

def linklessIf (shown : Bool) : List Message := if shown && isLinkless v m then [linkless m] else []

theorem zoomRun_gives : Gives (zoomRun v m) (· = zoomEntry v m) (linklessIf v m true) := by
  cases hroom : v.room? m.zoomRoom with
  | none =>
    simp only [zoomRun, hroom]
    exact .throw _
  | some room =>
    cases hlink : room.hasLink with
    | true =>
      simp only [zoomRun, zoomEntry, linklessIf, isLinkless, hroom, hlink, Option.any_some,
        Bool.not_true, Bool.and_false, Bool.false_eq_true, if_true, if_false]
      exact linkRun_gives _ _
    | false =>
      simp only [zoomRun, zoomEntry, linklessIf, isLinkless, hroom, hlink, Option.any_some,
        Bool.not_false, Bool.and_true, Bool.false_eq_true, if_true, if_false]
      exact (Gives.report .warn _).bind fun _ _ => textRun_gives _

structure Entry where
  title : String
  time : String
  location : String
  zoom : Option Run
  deriving DecidableEq, Repr

def entry (shown : Bool) : Entry where
  title := breakLines m.name
  time := breakLines m.time
  location := breakLines m.location
  zoom := if shown then some (zoomEntry v m) else none

end Zoom

@[simp] theorem isEmpty_breakLines (s : String) : (breakLines s).isEmpty = s.isEmpty := by
  rw [Bool.eq_iff_iff, String.isEmpty_iff, String.isEmpty_iff, ← String.toList_inj,
    ← String.toList_inj, breakLines, String.toList_ofList]
  exact List.map_eq_nil_iff

def broken (s : String) : List Run := if s.isEmpty then [] else [{ text := s }]

theorem broken_breakLines (s : String) : broken (breakLines s) = shownRuns s := by
  rw [broken, isEmpty_breakLines, shownRuns]
  rfl

section Cells

variable (width : Nat)

def shownCell (text : String) : Cell := plainCell width { runs := broken text }

def shownHeaderCell (text : String) : Cell where
  paragraphs := [{ runs := [shownBold text], align := some .center }]
  width := width
  fill := some headerFill

def shownHeaderRow (widths : List Nat) (labels : List String) : Row where
  cells := (widths.zip labels).map fun (width, label) => shownHeaderCell width label

def shownSpanningRow (widths : List Nat) (text : String) : Row where
  cells := [{ shownHeaderCell (widths.foldl (· + ·) 0) text with span := widths.length }]

def shownTimeCell (text : String) (keepWithNext : Bool) : Cell :=
  plainCell width { runs := broken text, align := some .right, keepWithNext }

def shownLocationCell (e : Entry) : Cell where
  paragraphs := { runs := broken e.location } :: e.zoom.toList.map fun room => { runs := [room] }
  width := width

theorem textCell_gives (text : String) :
    Gives (textCell width text) (· = shownCell width (breakLines text)) [] :=
  (runsIfAny_gives text).map fun runs hruns => by rw [hruns, shownCell, broken_breakLines]

theorem headerCell_gives (text : String) :
    Gives (headerCell width text) (· = shownHeaderCell width text) [] :=
  (boldRun_gives text).map fun run hrun => by rw [hrun, shownHeaderCell]

theorem headerRow_gives (widths : List Nat) (labels : List String) :
    Gives (headerRow widths labels) (· = shownHeaderRow widths labels) [] := by
  refine (Gives.mapM_quiet (fun cell _ => headerCell_gives cell.1 cell.2)).map
    fun cells hcells => ?_
  rw [hcells, shownHeaderRow]

theorem spanningRow_gives (widths : List Nat) (text : String) :
    Gives (spanningRow widths text) (· = shownSpanningRow widths text) [] :=
  (headerCell_gives _ text).map fun cell hcell => by rw [hcell, shownSpanningRow]

theorem timeCell_gives (text : String) (keepWithNext : Bool) :
    Gives (timeCell width text keepWithNext)
      (· = shownTimeCell width (breakLines text) keepWithNext) [] :=
  (runsIfAny_gives text).map fun runs hruns => by rw [hruns, shownTimeCell, broken_breakLines]

theorem locationCell_gives (v : Visit) (m : Meeting) (shown : Bool) :
    Gives (locationCell width v m shown) (· = shownLocationCell width (entry v m shown))
      (linklessIf v m shown) := by
  apply (runsIfAny_gives m.location).quiet
  intro runs hruns
  rw [shownLocationCell, entry, broken_breakLines]
  cases shown with
  | true =>
    refine (zoomRun_gives v m).map fun room hroom => ?_
    rw [hruns, hroom]
    rfl
  | false =>
    refine .pure ?_
    rw [hruns]
    rfl

end Cells

theorem startDocument_gives (settings : DocumentSettings) (title : Title) (dates : String) :
    Gives (startDocument settings title dates) (fun _ => True) [] := by
  have hrun (text : String) (points : Nat) (color : String) :
      Gives (headerRun text points color) (fun _ => True) [] :=
    (textRun_gives text).map fun _ _ => trivial
  have hline (isFirst : Bool) (text : String) (points : Nat) (color : String) :
      Gives (firstPageLine isFirst text points color) (fun _ => True) [] :=
    (hrun text points color).map fun _ _ => trivial
  have hfirst : Gives (firstHeader settings title dates) (fun _ => True) [] := by
    apply (hline true settings.institution _ _).quiet
    intro institution _
    apply (hline false settings.visitTitle _ _).quiet
    intro visit _
    apply (hline false title.first _ _).quiet
    intro document _
    dsimp only
    split
    · exact (Gives.pure (P := fun _ => True) trivial).map fun _ _ => trivial
    · apply (hline false dates _ _).quiet
      intro line _
      exact (Gives.pure (P := fun _ => True) trivial).map fun _ _ => trivial
  have hrunning : Gives (runningHeader settings title) (fun _ => True) [] := by
    apply (hrun settings.visitTitle _ _).quiet
    intro visit _
    apply (hrun title.running _ _).quiet
    intro document _
    exact (hrun " | " _ _).map fun _ _ => trivial
  exact hfirst.quiet fun _ _ => hrunning.map fun _ _ => trivial

end SiteVisit.Documents
