import SiteVisit.Proofs.Documents.Contents
import SiteVisit.Proofs.Visit.Guests

namespace SiteVisit

open Reporting (Gives)

namespace Documents

theorem body_gives {start : Reporting Document} {α : Type} {rest : Reporting α}
    {finish : Document → α → Document} {body : List Block} {a : α} {said : List Message}
    (hstart : Gives start (fun _ => True) []) (hrest : Gives rest (· = a) said)
    (hbody : ∀ d, (finish d a).body = body) :
    Gives (start >>= fun d => rest >>= fun a => pure (finish d a)) (·.body = body) said :=
  hstart.quiet fun d _ => hrest.map fun _ ha => ha ▸ hbody d

def meetingsByDay (v : Visit) : List (String × List Meeting) := grouping (·.date) v.meetings

def slotsByDay (v : Visit) : List (String × List (String × List Meeting)) :=
  (grouping (·.date) v.meetings).map fun (date, meetings) => (date, grouping (·.time) meetings)

namespace Full

def separatedRuns (isFirst : Bool) : List Run → List Run
  | [] => []
  | run :: rest => { text := ", ", bold := some isFirst } :: run :: separatedRuns false rest

theorem separated_gives {parts : List (Reporting Run)} {shown : List (Run × List Message)}
    (h : List.Forall₂ (fun part run => Gives part (· = run.1) run.2) parts shown)
    (isFirst : Bool) :
    Gives (separated isFirst parts) (· = separatedRuns isFirst (shown.map (·.1)))
      (shown.flatMap (·.2)) := by
  induction h generalizing isFirst with
  | nil => exact .pure rfl
  | @cons part run parts shown hpart _ ih =>
    rw [separated, List.map_cons, List.flatMap_cons, separatedRuns]
    refine hpart.bind fun first hfirst => (ih false).map fun others hothers => ?_
    rw [hfirst, hothers]

def line (e : Entry) : Paragraph :=
  styled meetingStyle ({ text := e.title, bold := some true } :: separatedRuns true
    ((broken e.time).map ({ · with color := some timeColor }) ++ broken e.location ++
      e.zoom.toList))

theorem meetingLine_gives (v : Visit) (m : Meeting) :
    Gives (meetingLine v m) (· = line (entry v m m.showsZoom)) (linklessIf v m m.showsZoom) := by
  let time : List (Run × List Message) :=
    (shownRuns m.time).map fun run => ({ run with color := some timeColor }, [])
  let place : List (Run × List Message) := (shownRuns m.location).map fun run => (run, [])
  let room : List (Run × List Message) :=
    if m.showsZoom then [(zoomEntry v m, linklessIf v m true)] else []
  have htime : List.Forall₂ (fun part run => Gives part (· = run.1) run.2)
      (if m.time.isEmpty then []
        else [do return { ← textRun m.time with color := some timeColor }]) time := by
    simp only [time, shownRuns]
    split
    · exact .nil
    · exact .cons ((textRun_gives _).map fun run hrun => by rw [hrun]) .nil
  have hplace : List.Forall₂ (fun part run => Gives part (· = run.1) run.2)
      (if m.location.isEmpty then [] else [textRun m.location]) place := by
    simp only [place, shownRuns]
    split
    · exact .nil
    · exact .cons (textRun_gives _) .nil
  have hroom : List.Forall₂ (fun part run => Gives part (· = run.1) run.2)
      (if m.showsZoom then [zoomRun v m] else []) room := by
    simp only [room]
    split
    · exact .cons (zoomRun_gives v m) .nil
    · exact .nil
  have hparts := separated_gives (List.rel_append (List.rel_append htime hplace) hroom) true
  have hsaid : (time ++ place ++ room).flatMap (·.2) = linklessIf v m m.showsZoom := by
    have hquiet (runs : List Run) : (runs.flatMap fun _ => ([] : List Message)) = [] := by
      simp [List.flatMap_eq_nil_iff]
    cases hshown : m.showsZoom <;>
      simp [time, place, room, hshown, linklessIf, List.flatMap_map, hquiet]
  apply (boldRun_gives m.name).quiet
  intro name hname
  refine (hparts.said_eq hsaid).map fun runs hruns => ?_
  have hzoom : (entry v m m.showsZoom).zoom.toList = room.map (·.1) := by
    cases hshown : m.showsZoom <;> simp [room, entry, hshown]
  rw [hname, hruns, line, hzoom]
  simp only [entry, broken_breakLines, time, place, List.map_append, List.map_map]
  simp only [Function.comp_def, List.map_id']
  rfl

def shownPerson (p : Participant) : Paragraph :=
  styled personStyle (if p.title.isEmpty then [shownBold p.fullName]
    else [shownBold (p.fullName ++ ", "), shownRun p.title])

def allLine : Paragraph := styled personStyle [shownRun allTeamMembers]

def shownHeading (label : String) : Paragraph := styled groupStyle [shownBold label]

def under (label : String) (lines : List Paragraph) : List Paragraph :=
  if lines.isEmpty then [] else shownHeading label :: lines

def teamLines (v : Visit) (m : Meeting) : List Paragraph :=
  if (v.attendingTeam m).isEmpty then []
  else if (v.attendingTeam m).length == v.teamMembers.length then [allLine]
  else (v.attendingTeam m).map shownPerson

def listedLines (v : Visit) (m : Meeting) : List Paragraph := (v.listed m).map shownPerson

def names (v : Visit) (settings : DocumentSettings) (m : Meeting) : List Paragraph :=
  if m.hidesNames then []
  else under settings.teamLabel (teamLines v m) ++
    under settings.representativeLabel (listedLines v m)

def shownDay (v : Visit) (settings : DocumentSettings) (date : String) (meetings : List Meeting) :
    List Paragraph :=
  styled dateStyle (shownRuns date) ::
    meetings.flatMap fun m => line (entry v m m.showsZoom) :: names v settings m

def reports (v : Visit) (m : Meeting) : List Message :=
  linklessIf v m m.showsZoom ++ if m.hidesNames then [] else v.missingReports m

theorem personLine_gives (p : Participant) : Gives (personLine p) (· = shownPerson p) [] := by
  rw [personLine, shownPerson]
  split
  · exact (boldRun_gives _).map fun run hrun => by rw [hrun]
  · apply (boldRun_gives _).quiet
    intro name hname
    exact (textRun_gives _).map fun title htitle => by rw [hname, htitle]

theorem heading_gives (label : String) : Gives (heading label) (· = shownHeading label) [] :=
  (boldRun_gives label).map fun run hrun => by rw [hrun, shownHeading]

theorem group_gives (label : String) (people : List Participant) :
    Gives (group label people) (· = shownHeading label :: people.map shownPerson) [] := by
  apply (heading_gives label).quiet
  intro head hhead
  refine (Gives.mapM_quiet fun p _ => personLine_gives p).map fun lines hlines => ?_
  rw [hhead, hlines]

theorem team_gives (v : Visit) (settings : DocumentSettings) (m : Meeting) :
    Gives (team v settings m) (· = under settings.teamLabel (teamLines v m)) [] := by
  simp only [team, teamLines]
  split
  · exact .pure rfl
  · next hsome =>
    split
    · apply (heading_gives _).quiet
      intro head hhead
      refine (textRun_gives _).map fun all hall => ?_
      rw [hhead, hall]
      rfl
    · have hlines : ((v.attendingTeam m).map shownPerson).isEmpty = false := by
        simpa using hsome
      simp only [under, hlines]
      exact group_gives _ _

theorem people_gives (v : Visit) (settings : DocumentSettings) (m : Meeting) :
    Gives (people v settings m) (· = names v settings m)
      (if m.hidesNames then [] else v.missingReports m) := by
  rw [people, names]
  split
  · exact .pure rfl
  · apply (team_gives v settings m).quiet
    intro lines hlines
    refine ((v.representatives_gives m).bind fun found hfound => ?_).said_eq (List.append_nil _)
    rw [hfound]
    dsimp only
    split
    · next hnone =>
      refine (Gives.pure (P := (· = [])) rfl).map fun others hothers => ?_
      simp [hlines, hothers, under, listedLines, List.isEmpty_iff.mp hnone]
    · next hsome =>
      have hlisted : (listedLines v m).isEmpty = false := by simpa [listedLines] using hsome
      refine (group_gives _ _).map fun others hothers => ?_
      rw [hlines, hothers, under, under, hlisted]
      rfl

theorem meeting_gives (v : Visit) (settings : DocumentSettings) (m : Meeting) :
    Gives (meeting v settings m) (· = line (entry v m m.showsZoom) :: names v settings m)
      (reports v m) := by
  refine (meetingLine_gives v m).bind fun head hhead => ?_
  exact (people_gives v settings m).map fun people hpeople => by rw [hhead, hpeople]

theorem day_gives (v : Visit) (settings : DocumentSettings) (date : String)
    (meetings : List Meeting) :
    Gives (day v settings date meetings) (· = shownDay v settings date meetings)
      (meetings.flatMap (reports v)) := by
  apply (runsIfAny_gives date).quiet
  intro runs hruns
  refine (Gives.mapM fun m _ => meeting_gives v settings m).map fun blocks hblocks => ?_
  rw [hruns, hblocks, shownDay, List.flatMap_def]

theorem generate_gives (v : Visit) (settings : DocumentSettings) :
    Gives (generate v settings)
      (·.body = ((meetingsByDay v).flatMap fun (date, meetings) =>
        shownDay v settings date meetings).map .paragraph)
      ((meetingsByDay v).flatMap fun (_, meetings) => meetings.flatMap (reports v)) := by
  rw [generate, groupBy_eq]
  refine body_gives (startDocument_gives _ _ _)
    (Gives.mapM fun group _ => day_gives v settings group.1 group.2) fun d => ?_
  rw [List.flatMap_def]
  rfl

end Full
namespace Summary

def shownFormatted (r : Markup.TextRun) : Run := { shownRun r.text with
  bold := ifSet r.style.bold, italics := ifSet r.style.italics, underline := ifSet r.style.underline }

def shownRoles (m : Meeting) : List Run :=
  match m.rolesMarkup.filter (!·.isEmpty) with
  | none => shownRuns (plainRoles m)
  | some markup =>
    match Markup.readRuns markup with
    | .ok runs => runs.map shownFormatted
    | .error _ => shownRuns (plainRoles m)

def rolesReports (m : Meeting) : List Message :=
  match m.rolesMarkup.filter (!·.isEmpty) with
  | none => []
  | some markup =>
    match Markup.readRuns markup with
    | .ok _ => []
    | .error p =>
      [⟨.warn, "team roles for " ++ Text.quoted m.name ++ " shown unformatted: " ++ p.message⟩]

def shownRow (withRoles isFirst isLast : Bool) (e : Entry) (roles : List Run) : Row :=
  let width (i : Nat) : Nat := (widths withRoles).getD i 0
  { cells := [
      { shownTimeCell (width 0) (if isFirst then e.time else "") (!isLast) with
        borders := hiddenEdges (!isFirst) (!isLast) },
      shownCell (width 1) e.title,
      shownLocationCell (width 2) e] ++
      if withRoles then [plainCell (width 3) { runs := roles }] else [] }

def shownSlot (v : Visit) (withRoles isFirst : Bool) : List Meeting → List Row
  | [] => []
  | m :: rest =>
    shownRow withRoles isFirst rest.isEmpty (entry v m m.showsZoom) (shownRoles m) ::
      shownSlot v withRoles false rest

def shownTable (v : Visit) (withRoles : Bool) (date : String)
    (slots : List (String × List Meeting)) : Table where
  columns := widths withRoles
  rows := { shownSpanningRow (widths withRoles) date with repeated := true } ::
    { shownHeaderRow (widths withRoles) (labels withRoles) with repeated := true } ::
    slots.flatMap fun (_, slot) => shownSlot v withRoles true slot

def reports (v : Visit) (withRoles : Bool) (m : Meeting) : List Message :=
  linklessIf v m m.showsZoom ++ if withRoles then rolesReports m else []

theorem formattedRun_gives (r : Markup.TextRun) :
    Gives (formattedRun r) (· = shownFormatted r) [] :=
  (textRun_gives r.text).map fun run hrun => by rw [hrun, shownFormatted]

theorem rolesRuns_gives (m : Meeting) :
    Gives (rolesRuns m) (· = shownRoles m) (rolesReports m) := by
  cases hmarkup : m.rolesMarkup.filter (!·.isEmpty) with
  | none =>
    simp only [rolesRuns, shownRoles, rolesReports, hmarkup]
    exact runsIfAny_gives _
  | some markup =>
    cases hruns : Markup.readRuns markup with
    | ok runs =>
      simp only [rolesRuns, shownRoles, rolesReports, hmarkup, hruns]
      exact Gives.mapM_quiet fun r _ => formattedRun_gives r
    | error p =>
      simp only [rolesRuns, shownRoles, rolesReports, hmarkup, hruns]
      exact (Gives.report .warn _).bind fun _ _ => runsIfAny_gives _

theorem meetingRow_gives (v : Visit) (withRoles isFirst isLast : Bool) (m : Meeting) :
    Gives (meetingRow v withRoles isFirst isLast m)
      (· = shownRow withRoles isFirst isLast (entry v m m.showsZoom) (shownRoles m))
      (reports v withRoles m) := by
  have htime : breakLines (if isFirst then m.time else "") =
      if isFirst then (entry v m m.showsZoom).time else "" := by
    split <;> rfl
  apply (timeCell_gives _ _ _).quiet
  intro time htimeCell
  rw [htime] at htimeCell
  apply (textCell_gives _ _).quiet
  intro name hname
  apply (locationCell_gives _ v m m.showsZoom).bind
  intro place hplace
  dsimp only
  cases withRoles with
  | true =>
    refine ((rolesRuns_gives m).bind fun runs hruns => ?_).said_eq (List.append_nil _)
    refine (Gives.pure (P := (· = [plainCell ((widths true).getD 3 0) { runs }])) rfl).map
      fun roles hroles => ?_
    rw [htimeCell, hname, hplace, hroles, hruns]
    rfl
  | false =>
    refine (Gives.pure (P := (· = [])) rfl).map fun roles hroles => ?_
    rw [htimeCell, hname, hplace, hroles]
    rfl

theorem slotRows_gives (v : Visit) (withRoles isFirst : Bool) (meetings : List Meeting) :
    Gives (slotRows v withRoles isFirst meetings) (· = shownSlot v withRoles isFirst meetings)
      (meetings.flatMap (reports v withRoles)) := by
  induction meetings generalizing isFirst with
  | nil => exact .pure rfl
  | cons m rest ih =>
    rw [slotRows, shownSlot, List.flatMap_cons]
    refine (meetingRow_gives v withRoles isFirst _ m).bind fun row hrow => ?_
    exact (ih false).map fun rows hrows => by rw [hrow, hrows]

theorem dayTable_gives (v : Visit) (withRoles : Bool) (date : String) (meetings : List Meeting) :
    Gives (dayTable v withRoles date meetings)
      (· = shownTable v withRoles date (grouping (·.time) meetings))
      ((grouping (·.time) meetings).flatMap fun (_, slot) =>
        slot.flatMap (reports v withRoles)) := by
  rw [dayTable, groupBy_eq]
  apply (spanningRow_gives _ _).quiet
  intro head hhead
  apply (headerRow_gives _ _).quiet
  intro columns hcolumns
  refine (Gives.mapM fun slot _ => slotRows_gives v withRoles true slot.2).map fun slots hslots => ?_
  rw [hhead, hcolumns, hslots, shownTable, List.flatMap_def]

theorem generate_gives (withRoles : Bool) (v : Visit) (settings : DocumentSettings) :
    Gives (generate withRoles v settings)
      (·.body = [Block.paragraph {}].intercalate ((slotsByDay v).map
        fun (date, slots) => [.table (shownTable v withRoles date slots)]))
      ((slotsByDay v).flatMap fun (_, slots) =>
        slots.flatMap fun (_, slot) => slot.flatMap (reports v withRoles)) := by
  rw [generate, groupBy_eq]
  refine (body_gives (startDocument_gives _ _ _)
    (Gives.mapM fun group _ => dayTable_gives v withRoles group.1 group.2) fun d => ?_).said_eq ?_
  · rw [slotsByDay, List.map_map, List.map_map]
    rfl
  · rw [slotsByDay, List.flatMap_map]

end Summary

namespace Individual

def shownRow (e : Entry) : Row where
  cells := [shownTimeCell 2160 e.time false, shownCell 4320 e.title, shownLocationCell 4320 e]

def shownDay (v : Visit) (date : String) (meetings : List Meeting) : List Row :=
  shownSpanningRow widths date :: shownHeaderRow widths labels ::
    meetings.map fun m => shownRow (entry v m m.zoomIsPrimary)

def shownCentered (text : String) (points : Nat) : Paragraph where
  runs := [{ shownBold text with halfPoints := some (2 * points) }]
  align := some .center

def shownSection (v : Visit) (p : Participant) (meetings : List Meeting) : List Block := [
  .paragraph (shownCentered p.fullName 20),
  .paragraph (shownCentered (Text.trim (p.title ++ " Itinerary")) 16),
  .table ⟨widths, (grouping (·.date) meetings).flatMap fun (date, meetings) =>
    shownDay v date meetings⟩]

theorem centered_gives (text : String) (points : Nat) :
    Gives (centered text points) (· = shownCentered text points) [] :=
  (boldRun_gives text).map fun run hrun => by rw [hrun, shownCentered]

theorem meetingRow_gives (v : Visit) (m : Meeting) :
    Gives (meetingRow v m) (· = shownRow (entry v m m.zoomIsPrimary))
      (linklessIf v m m.zoomIsPrimary) := by
  apply (timeCell_gives _ _ _).quiet
  intro time htime
  apply (textCell_gives _ _).quiet
  intro name hname
  refine (locationCell_gives _ v m m.zoomIsPrimary).map fun place hplace => ?_
  rw [htime, hname, hplace]
  rfl

theorem dayRows_gives (v : Visit) (date : String) (meetings : List Meeting) :
    Gives (dayRows v date meetings) (· = shownDay v date meetings)
      (meetings.flatMap fun m => linklessIf v m m.zoomIsPrimary) := by
  apply (spanningRow_gives _ _).quiet
  intro head hhead
  apply (headerRow_gives _ _).quiet
  intro columns hcolumns
  refine (Gives.mapM fun m _ => meetingRow_gives v m).map fun rows hrows => ?_
  rw [hhead, hcolumns, hrows, shownDay]

def reports (v : Visit) (p : Participant) : List Message :=
  (grouping (·.date) (meetingsFor v p)).flatMap fun (_, meetings) =>
    meetings.flatMap fun m => linklessIf v m m.zoomIsPrimary

theorem memberBlocks_gives (v : Visit) (p : Participant) :
    Gives (memberBlocks v p) (· = shownSection v p (meetingsFor v p)) (reports v p) := by
  rw [memberBlocks, groupBy_eq]
  apply (centered_gives _ _).quiet
  intro name hname
  apply (centered_gives _ _).quiet
  intro line hline
  refine (Gives.mapM fun group _ => dayRows_gives v group.1 group.2).map fun days hdays => ?_
  rw [hname, hline, hdays, shownSection, List.flatMap_def]

theorem generate_gives (v : Visit) (settings : DocumentSettings) :
    Gives (generate v settings)
      (·.body = [sectionEnd].intercalate (v.teamMembers.map fun p =>
        shownSection v p (meetingsFor v p)))
      ((if v.teamMembers.isEmpty then
          [⟨.warn, "no team members with roles; individual itineraries are empty"⟩] else []) ++
        v.teamMembers.flatMap (reports v)) := by
  have hmembers : Gives (v.teamMembers.mapM (memberBlocks v)) _ _ :=
    Gives.mapM fun p _ => memberBlocks_gives v p
  apply (startDocument_gives _ _ _).quiet
  intro d _
  dsimp only
  split
  · refine (Gives.report .warn _).bind fun _ _ => hmembers.map fun blocks hblocks => ?_
    rw [hblocks]
  · refine hmembers.map fun blocks hblocks => ?_
    rw [hblocks]

end Individual
end Documents
end SiteVisit
