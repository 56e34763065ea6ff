import Mathlib.Data.List.Perm.Basic
import SiteVisit.Proofs.Documents.Bodies
import SiteVisit.Proofs.Visit.Usable

namespace SiteVisit.Documents

open Markup.Xml (IsLegal)
open Reporting (Gives)

/-- A document is written, with a body and with reports of a kind, or there is an excuse. -/
def Writes (x : Reporting Document) (excuse : Prop) (P : List Block → List Message → Prop) : Prop :=
  ∀ messages, match x.outcome messages with
    | (.ok d, after) => ∃ said, after = messages ++ said ∧ P d.body said
    | (.error _, _) => excuse

theorem writes_of_gives {x : Reporting Document} {body : List Block} {said : List Message}
    {excuse : Prop} {P : List Block → List Message → Prop} (hx : Gives x (·.body = body) said)
    (hsucceeds : ¬ excuse → x.Succeeds) (h : P body said) : Writes x excuse P := by
  intro messages
  rcases houtcome : x.outcome messages with ⟨_ | d, after⟩
  · by_contra hno
    obtain ⟨d, after, hok, -⟩ := hsucceeds hno messages
    rw [houtcome] at hok
    cases hok
  · obtain ⟨hbody, rfl⟩ := hx messages d after houtcome
    exact ⟨said, rfl, hbody ▸ h⟩

theorem Writes.exists_ok {x : Reporting Document} {excuse : Prop}
    {P : List Block → List Message → Prop} (h : Writes x excuse P) (hno : ¬ excuse)
    (messages : List Message) :
    ∃ d said, x.outcome messages = (.ok d, messages ++ said) ∧ P d.body said := by
  have hrun := h messages
  rcases houtcome : x.outcome messages with ⟨_ | d, after⟩
  · rw [houtcome] at hrun
    exact absurd hrun hno
  · rw [houtcome] at hrun
    obtain ⟨said, rfl, hP⟩ := hrun
    exact ⟨d, said, rfl, hP⟩

variable {v : Visit}

theorem perm_meetingsByDay (v : Visit) : ((meetingsByDay v).flatMap (·.2)).Perm v.meetings :=
  perm_grouping v.meetings

theorem perm_slotsByDay (v : Visit) :
    ((slotsByDay v).flatMap fun day => day.2.flatMap (·.2)).Perm v.meetings := by
  rw [slotsByDay, List.flatMap_map]
  exact (List.Perm.flatMap_left _ fun day _ => perm_grouping day.2).trans (perm_grouping v.meetings)

section Warnings

def isLinklessWarning (m : Message) : Bool :=
  m.severity == .warn && "zoom room without link: ".toList.isPrefixOf m.text.toList

def linklessWarnings (v : Visit) : List Message :=
  (v.meetings.filter fun m => m.showsZoom && isLinkless v m).map linkless

theorem isLinklessWarning_linkless (m : Meeting) : isLinklessWarning (linkless m) = true := by
  rw [isLinklessWarning, linkless, String.toList_append, Bool.and_eq_true]
  exact ⟨rfl, List.isPrefixOf_iff_prefix.mpr (List.prefix_append _ _)⟩

theorem filter_linklessIf (m : Meeting) (shown : Bool) :
    (linklessIf v m shown).filter isLinklessWarning = linklessIf v m shown := by
  rw [linklessIf]
  split <;> simp [isLinklessWarning_linkless]

theorem flatMap_linklessIf (meetings : List Meeting) :
    (meetings.flatMap fun m => linklessIf v m m.showsZoom) =
      (meetings.filter fun m => m.showsZoom && isLinkless v m).map linkless := by
  induction meetings with
  | nil => rfl
  | cons m rest ih =>
    rw [List.flatMap_cons, List.filter_cons, ih, linklessIf]
    split <;> rfl

theorem linklessWarnings_perm {reports : Meeting → List Message} {shown : List Meeting}
    (hshown : shown.Perm v.meetings)
    (hreports : ∀ m, (reports m).filter isLinklessWarning = linklessIf v m m.showsZoom) :
    ((shown.flatMap reports).filter isLinklessWarning).Perm (linklessWarnings v) := by
  simp only [List.filter_flatMap, hreports]
  rw [linklessWarnings, ← flatMap_linklessIf]
  exact hshown.flatMap_right _

theorem Full.filter_reports (m : Meeting) :
    (Full.reports v m).filter isLinklessWarning = linklessIf v m m.showsZoom := by
  rw [Full.reports, List.filter_append, filter_linklessIf, List.append_right_eq_self]
  split
  · rfl
  · exact List.filter_eq_nil_iff.mpr (List.forall_mem_map.mpr fun _ _ => Bool.false_ne_true)

theorem Summary.filter_reports (withRoles : Bool) (m : Meeting) :
    (Summary.reports v withRoles m).filter isLinklessWarning = linklessIf v m m.showsZoom := by
  rw [Summary.reports, List.filter_append, filter_linklessIf, List.append_right_eq_self]
  split
  · rw [Summary.rolesReports]
    split
    · rfl
    · split
      · rfl
      · -- the annotation is reported in other words
        simp [isLinklessWarning, String.toList_append]
  · rfl

end Warnings

section Lines

def isMeetingLine : Block → Bool
  | .paragraph p => p.style == some (ParagraphStyle.idOf Full.meetingStyle.name)
  | .table _ => false

theorem isMeetingLine_styled (style : ParagraphStyle) (runs : List Run) :
    isMeetingLine (.paragraph (Full.styled style runs)) =
      (ParagraphStyle.idOf style.name == ParagraphStyle.idOf Full.meetingStyle.name) := rfl

theorem Full.isMeetingLine_line (e : Entry) : isMeetingLine (.paragraph (line e)) = true := by
  rw [line, isMeetingLine_styled, beq_self_eq_true]

theorem Full.not_isMeetingLine_names (settings : DocumentSettings) (m : Meeting) :
    ∀ p ∈ names v settings m, isMeetingLine (.paragraph p) = false := by
  have hperson (p : Participant) : isMeetingLine (.paragraph (shownPerson p)) = false := by
    rw [shownPerson, isMeetingLine_styled]
    decide
  have hunder (label : String) {lines : List Paragraph}
      (h : ∀ p ∈ lines, isMeetingLine (.paragraph p) = false) :
      ∀ p ∈ under label lines, isMeetingLine (.paragraph p) = false := by
    rw [under]
    split
    · exact List.forall_mem_nil _
    · refine List.forall_mem_cons.mpr ⟨?_, h⟩
      rw [shownHeading, isMeetingLine_styled]
      decide
  have hteam : ∀ p ∈ teamLines v m, isMeetingLine (.paragraph p) = false := by
    rw [teamLines]
    split
    · exact List.forall_mem_nil _
    · split
      · exact List.forall_mem_singleton.mpr (by decide)
      · exact List.forall_mem_map.mpr fun p _ => hperson p
  rw [names]
  split
  · exact List.forall_mem_nil _
  · exact List.forall_mem_append.mpr ⟨hunder _ hteam,
      hunder _ (List.forall_mem_map.mpr fun p _ => hperson p)⟩

theorem Full.filter_isMeetingLine (settings : DocumentSettings) :
    (((meetingsByDay v).flatMap fun (date, meetings) =>
        shownDay v settings date meetings).map Block.paragraph).filter isMeetingLine =
      ((meetingsByDay v).flatMap (·.2)).map fun m =>
        .paragraph (line (entry v m m.showsZoom)) := by
  have hdate (runs : List Run) : isMeetingLine (.paragraph (styled dateStyle runs)) = false := by
    rw [isMeetingLine_styled]
    decide
  have hmeeting (m : Meeting) :
      ((line (entry v m m.showsZoom) :: names v settings m).map Block.paragraph).filter
        isMeetingLine = [.paragraph (line (entry v m m.showsZoom))] := by
    rw [List.map_cons, List.filter_cons_of_pos (isMeetingLine_line _), List.filter_eq_nil_iff.mpr]
    refine List.forall_mem_map.mpr fun p hp => ?_
    rw [not_isMeetingLine_names settings m p hp]
    exact Bool.false_ne_true
  simp only [List.map_flatMap, List.filter_flatMap]
  refine List.flatMap_congr fun day _ => ?_
  rw [shownDay, List.map_cons, List.filter_cons_of_neg (by rw [hdate]; exact Bool.false_ne_true),
    List.map_flatMap, List.filter_flatMap]
  simp only [hmeeting]
  exact List.flatMap_pure_eq_map _ _

end Lines

theorem mem_slotsByDay {day : String × List (String × List Meeting)} (hday : day ∈ slotsByDay v)
    {slot : String × List Meeting} (hslot : slot ∈ day.2) :
    slot.2 ≠ [] ∧ ∀ m ∈ slot.2, m.date = day.1 ∧ m.time = slot.1 := by
  obtain ⟨group, hgroup, rfl⟩ := List.mem_map.mp hday
  obtain ⟨hne, hmembers⟩ := members_of_mem_grouping hslot
  refine ⟨hne, fun m hm => ?_⟩
  obtain ⟨hin, htime⟩ := hmembers m hm
  exact ⟨((members_of_mem_grouping hgroup).2 m hin).2, htime⟩

theorem zoomEntry_eq (h : v.IsSound) {m : Meeting} (hm : m ∈ v.meetings)
    (hshown : m.showsZoom = true) :
    ∃ z ∈ v.zoomRooms, z.name = m.zoomRoom ∧
      (Text.trim z.link ≠ "" →
        zoomEntry v m = shownLink (Text.trim z.link) z.name ∧ isLinkless v m = false) ∧
      (Text.trim z.link = "" → zoomEntry v m = shownRun z.name ∧ isLinkless v m = true) := by
  obtain ⟨z, hz, hname⟩ := h.known m hm (.inl hshown)
  have hroom := (Visit.room?_eq_some h.rooms m.zoomRoom z).mpr ⟨hz, hname⟩
  refine ⟨z, hz, hname, fun hlink => ?_, fun hlink => ?_⟩
  · have hhas : z.hasLink = true := by simpa [ZoomRoom.hasLink] using hlink
    simp [zoomEntry, isLinkless, hroom, hhas]
  · have hno : z.hasLink = false := by simpa [ZoomRoom.hasLink] using hlink
    simp [zoomEntry, isLinkless, hroom, hno, hname]

/-- The documents of a visit that has been loaded can be written unless a text has a character that
documents have not. They have all meetings, each of them once: the detailed itinerary by date, the
summaries by date and then by time. Each of them shows the same entry of a meeting and warns of the
rooms without a link. -/
theorem schedules_agree {w : Workbook} {o : LoadOptions} {messages after : List Message}
    (h : (Visit.load w o).outcome messages = (.ok v, after)) (settings : DocumentSettings) :
    ((meetingsByDay v).flatMap (·.2)).Perm v.meetings ∧
    ((slotsByDay v).flatMap fun day => day.2.flatMap (·.2)).Perm v.meetings ∧
    (∀ day ∈ slotsByDay v, ∀ slot ∈ day.2,
      slot.2 ≠ [] ∧ ∀ m ∈ slot.2, m.date = day.1 ∧ m.time = slot.1) ∧
    (∀ m ∈ v.meetings, m.showsZoom = true →
      ∃ z ∈ v.zoomRooms, z.name = m.zoomRoom ∧
        (Text.trim z.link ≠ "" →
          zoomEntry v m = shownLink (Text.trim z.link) z.name ∧ isLinkless v m = false) ∧
        (Text.trim z.link = "" → zoomEntry v m = shownRun z.name ∧ isLinkless v m = true)) ∧
    Writes (Full.generate v settings) (¬ (w.TextsOf IsLegal ∧ settings.TextsOf IsLegal))
      (fun body said =>
        body = ((meetingsByDay v).flatMap fun (date, meetings) =>
          Full.shownDay v settings date meetings).map .paragraph ∧
        body.filter isMeetingLine = ((meetingsByDay v).flatMap (·.2)).map (fun m =>
          .paragraph (Full.line (entry v m m.showsZoom))) ∧
        (said.filter isLinklessWarning).Perm (linklessWarnings v)) ∧
    ∀ withRoles, Writes (Summary.generate withRoles v settings)
      (¬ (w.TextsOf IsLegal ∧ settings.TextsOf IsLegal))
      (fun body said =>
        body = [Block.paragraph {}].intercalate ((slotsByDay v).map fun (date, slots) =>
          [.table (Summary.shownTable v withRoles date slots)]) ∧
        (said.filter isLinklessWarning).Perm (linklessWarnings v)) := by
  have hread := Visit.load_eq_ok h
  obtain ⟨_, _, _, -, -, -, -, hsound⟩ := Visit.sheets_of_read hread
  have hsucceeds (kind : Kind) (hlegal : ¬ ¬ (w.TextsOf IsLegal ∧ settings.TextsOf IsLegal)) :
      (kind.generate v settings).Succeeds := by
    obtain ⟨hw, hsettings⟩ := not_not.mp hlegal
    exact generate_succeeds (Visit.showable_of_read hread hw) hsettings kind
  refine ⟨perm_meetingsByDay v, perm_slotsByDay v, fun day hday slot => mem_slotsByDay hday,
    fun m hm => zoomEntry_eq hsound hm, ?_, fun withRoles => ?_⟩
  · refine writes_of_gives (Full.generate_gives v settings) (hsucceeds .full)
      ⟨rfl, Full.filter_isMeetingLine settings, ?_⟩
    have hwarnings := linklessWarnings_perm (perm_meetingsByDay v) Full.filter_reports
    rwa [List.flatMap_assoc] at hwarnings
  · refine writes_of_gives (Summary.generate_gives withRoles v settings) ?_ ⟨rfl, ?_⟩
    · cases withRoles
      · exact hsucceeds .summary
      · exact hsucceeds .roles
    · have hwarnings := linklessWarnings_perm (perm_slotsByDay v) (Summary.filter_reports withRoles)
      simpa only [List.flatMap_assoc] using hwarnings

/-- A workbook whose days take turns, with a room that has no link, with somebody who is both listed
and called for by a role, and with individuals who are not on the roster. -/
def crossBook : Workbook := [
  { name := "Proposed Meetings-MSCHE Team"
    rows := [
      ["Date", "Time", "Meeting Location", "Zoom Room Option", "Zoom Link",
        "Interview Assignments", "Team Chair", "SI", "SII", "SIII", "SIV", "SV", "SVI", "SVII",
        "Individuals", "Hide Names"].map .text,
      ["Monday, June 2, 2025", "9:00-10:00 a.m.", "Hall", "Primary Room", "Red", "Opening", "x",
        "", "", "", "", "", "", "", "Bo Ek, Ann Lee, Nobody, Bo Ek", ""].map .text,
      ["Tuesday, June 3, 2025", "9:00-10:00 a.m.", "", "Primary Room", "Blue", "Tour", "x", "x",
        "", "", "", "", "", "", "Bo Ek", ""].map .text,
      ["Monday, June 2, 2025", "9:00-10:00 a.m.", "Lab", "", "", "Review", "", "x", "", "", "",
        "", "", "", "Somebody", "x"].map .text] },
  { name := "Participant List"
    rows := [
      ["PFX", "First Name", "Last Name", "Title /Involvement", "Staff", "Faculty", "Email",
        "Team Member"].map .text,
      ["", "Ann", "Lee", "Chair", "", "", "", "Team Chair"].map .text,
      ["", "Bo", "Ek", "Dean", "x", "", "", ""].map .text,
      ["", "Cy", "Oh", "", "", "", "", "SI"].map .text] },
  { name := "Zoom Rooms"
    rows := [["Zoom Room Name", "Link"].map .text, ["Red", " https://zoom.us/j/1"].map .text,
      ["Blue", " "].map .text] }]

def crossOpening : Meeting where
  name := "Opening"
  date := "Monday, June 2, 2025"
  day := Calendar.Date.ofParts? 2025 6 2
  time := "9:00-10:00 a.m."
  start := (Calendar.TimeOfDay.ofClock 9 0).toOption
  finish := (Calendar.TimeOfDay.ofClock 10 0).toOption
  location := "Hall"
  zoomOption := .primary
  zoomRoom := "Red"
  roles := [.chair]
  individuals := [⟨"Bo Ek", "bo-ek"⟩, ⟨"Ann Lee", "ann-lee"⟩, ⟨"Nobody", "nobody"⟩, ⟨"Bo Ek", "bo-ek"⟩]

def crossTour : Meeting where
  name := "Tour"
  date := "Tuesday, June 3, 2025"
  day := Calendar.Date.ofParts? 2025 6 3
  time := "9:00-10:00 a.m."
  start := (Calendar.TimeOfDay.ofClock 9 0).toOption
  finish := (Calendar.TimeOfDay.ofClock 10 0).toOption
  location := ""
  zoomOption := .primary
  zoomRoom := "Blue"
  roles := [.chair, .standard1]
  individuals := [⟨"Bo Ek", "bo-ek"⟩]

def crossReview : Meeting where
  name := "Review"
  date := "Monday, June 2, 2025"
  day := Calendar.Date.ofParts? 2025 6 2
  time := "9:00-10:00 a.m."
  start := (Calendar.TimeOfDay.ofClock 9 0).toOption
  finish := (Calendar.TimeOfDay.ofClock 10 0).toOption
  location := "Lab"
  zoomRoom := ""
  roles := [.standard1]
  individuals := [⟨"Somebody", "somebody"⟩]
  hidesNames := true

def crossRead : Visit where
  meetings := [crossOpening, crossTour, crossReview]
  participants := [
    { title := "Chair", firstName := "Ann", lastName := "Lee", fullName := "Ann Lee"
      id := "ann-lee", roles := ["Team Chair"] },
    { title := "Dean", firstName := "Bo", lastName := "Ek", staff := true, fullName := "Bo Ek"
      id := "bo-ek" },
    { firstName := "Cy", lastName := "Oh", fullName := "Cy Oh", id := "cy-oh", roles := ["SI"] }]
  zoomRooms := [⟨"Red", "https://zoom.us/j/1"⟩, ⟨"Blue", ""⟩]

theorem load_crossBook : ∃ after, (Visit.load crossBook {}).outcome [] = (.ok crossRead, after) :=
  exists_outcome_of_toOption (by decide +kernel)

theorem crossBook_legal :
    crossBook.TextsOf IsLegal ∧ DocumentSettings.TextsOf IsLegal {} := by
  constructor
  · unfold Workbook.TextsOf
    decide +kernel
  · exact ⟨by decide +kernel, by decide +kernel, by decide +kernel, by decide +kernel,
      by decide +kernel⟩

theorem schedules_agree_crossBook : ∃ d said,
    (Full.generate crossRead {}).outcome [] = (.ok d, said) ∧
    d.body.filter isMeetingLine = [crossOpening, crossReview, crossTour].map (fun m =>
      .paragraph (Full.line (entry crossRead m m.showsZoom))) ∧
    (said.filter isLinklessWarning).Perm [⟨.warn, "zoom room without link: Blue"⟩] := by
  obtain ⟨after, hload⟩ := load_crossBook
  obtain ⟨-, -, -, -, hfull, -⟩ := schedules_agree hload {}
  have hdays : (meetingsByDay crossRead).flatMap (·.2) = [crossOpening, crossReview, crossTour] := by
    decide +kernel
  have hwarnings : linklessWarnings crossRead = [⟨.warn, "zoom room without link: Blue"⟩] := by
    decide +kernel
  have hrun := hfull []
  rcases houtcome : (Full.generate crossRead {}).outcome [] with ⟨_ | d, reported⟩
  · rw [houtcome] at hrun
    exact (hrun crossBook_legal).elim
  · rw [houtcome] at hrun
    obtain ⟨said, hsaid, -, hlines, hperm⟩ := hrun
    rw [hdays] at hlines
    rw [hwarnings] at hperm
    exact ⟨d, said, by rw [hsaid, List.nil_append], hlines, hperm⟩

end SiteVisit.Documents
