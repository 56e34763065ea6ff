import SiteVisit.Proofs.Annotations
import SiteVisit.Proofs.Markup.Written
import SiteVisit.Proofs.Visit.ZoomColumn
import SiteVisit.Proofs.Workbook.Rows

namespace SiteVisit

open Markup.Xml (IsLegal IsDocumentChar)
open Text (OnlyOf)

namespace Text

theorem trim_breakLines_eq_empty {s : String} :
    trim (Documents.breakLines s) = "" ↔ trim s = "" := by
  simp only [trim_eq_empty_iff, Documents.breakLines, String.toList_ofList, List.forall_mem_map]
  refine forall₂_congr fun c _ => ?_
  split
  · next hreturn =>
    rw [beq_iff_eq.mp hreturn]
    exact iff_of_true rfl rfl
  · rfl

theorem forall_isBlank_unixLines (cs : List Char) :
    (∀ c ∈ unixLines cs, isBlank c = true) ↔ ∀ c ∈ cs, isBlank c = true := by
  have hfeed : isBlank '\n' = true := by decide
  have hreturn : isBlank '\r' = true := by decide
  fun_induction unixLines cs with
  | case1 => rfl
  | case2 cs ih => simp [hfeed, hreturn, ih]
  | case3 cs hcs ih => simp [hfeed, hreturn, ih]
  | case4 d cs hcrlf hcr ih => simp [ih]

end Text

namespace Documents

def IsVisible (runs : List Run) : Prop := ∃ run ∈ runs, Text.trim run.text ≠ ""

instance (runs : List Run) : Decidable (IsVisible runs) :=
  inferInstanceAs (Decidable (∃ run ∈ runs, Text.trim run.text ≠ ""))

theorem isVisible_shownRuns {s : String} : IsVisible (shownRuns s) ↔ Text.trim s ≠ "" := by
  rw [shownRuns, IsVisible]
  split
  · next h => simp [String.isEmpty_iff.mp h]
  · simp [shownRun, Text.trim_breakLines_eq_empty]

namespace Summary

theorem trim_shownFormatted (run : Markup.TextRun) :
    Text.trim (shownFormatted run.unified).text = "" ↔ Text.trim run.text = "" := by
  rw [shownFormatted, shownRun, Text.trim_breakLines_eq_empty, Text.trim_eq_empty_iff,
    Text.trim_eq_empty_iff, Markup.TextRun.unified, String.toList_ofList,
    Text.forall_isBlank_unixLines]

theorem isVisible_shownFormatted {runs : List Markup.TextRun} :
    IsVisible (((runs.filter fun run => run.text ≠ "").map Markup.TextRun.unified).map
      shownFormatted) ↔ Text.trim (Datum.rich runs).cellText ≠ "" := by
  have hcell : Text.trim (Datum.rich runs).cellText = "" ↔
      ∀ run ∈ runs, Text.trim run.text = "" := by
    rw [show (Datum.rich runs).cellText = Text.trim (String.join (runs.map (·.text))) from rfl,
      Text.trim_trim, Text.trim_join_eq_empty, List.forall_mem_map]
  rw [ne_eq, hcell, IsVisible]
  simp only [List.mem_map, List.mem_filter]
  constructor
  · rintro ⟨_, ⟨_, ⟨run, ⟨hrun, -⟩, rfl⟩, rfl⟩, hne⟩ hblank
    exact hne ((trim_shownFormatted run).mpr (hblank run hrun))
  · intro hblank
    obtain ⟨run, hrun, hne⟩ := not_forall₂.mp hblank
    refine ⟨_, ⟨_, ⟨run, ⟨hrun, ?_⟩, rfl⟩, rfl⟩, mt (trim_shownFormatted run).mp hne⟩
    rw [decide_eq_true_eq]
    rintro hempty
    exact hne (by rw [hempty, Text.trim_empty])

end Summary
end Documents

namespace Sheet

variable {s : Sheet} {header row : Nat} {cell : Datum} {m : Meeting}

/-- The cell in a row that the annotation of its meeting is read from, or nothing if there are no
annotations. -/
inductive HasNote (s : Sheet) (header row : Nat) : Datum → Prop
  | cell {column : Nat} : s.IsColumn header teamRolesColumn column →
    HasNote s header row (s.cell row column)
  | absent : (∀ column, s.label header column ≠ teamRolesColumn) → HasNote s header row .null

theorem exists_hasNote (s : Sheet) (header row : Nat) : ∃ cell, s.HasNote header row cell := by
  by_cases hcolumn : ∃ column, s.label header column = teamRolesColumn
  · obtain ⟨column, hcolumn⟩ := exists_isColumn hcolumn
    exact ⟨_, .cell hcolumn⟩
  · exact ⟨_, .absent (not_exists.mp hcolumn)⟩

theorem MakesMeeting.note (h : s.MakesMeeting header row m) (hcell : s.HasNote header row cell) :
    m.rolesText = Text.trim cell.cellText ∧
      m.rolesMarkup = cell.cellMarkup?.filter (!·.isEmpty) := by
  obtain ⟨r, hr, rfl⟩ := h
  have hmaps := Spec.maps_of_eval hr nodup_meetingFields
  have hread := hmaps.base "team_roles_text" (.column teamRolesColumn false)
    (by simp [meetingFields]) rfl (by decide)
  have hmarked := hmaps.base "team_roles_markup"
    (.rowFunction (Transform.markupOf teamRolesColumn)) (by simp [meetingFields]) rfl (by decide)
  simp only [Spec.eval] at hread hmarked
  have hplain : IsPlainName teamRolesColumn := by decide
  have htext : r.fieldAt "team_roles_text" = .text (Text.trim cell.cellText) := by
    cases hcell with
    | cell hcolumn =>
      rw [selectHeader_recordAt hcolumn hplain] at hread
      exact (Except.ok.inj hread).symm
    | absent hnone =>
      rw [selectHeader_recordAt_none hnone hplain.2] at hread
      exact (Except.ok.inj hread).symm
  have hmarkup : r.fieldAt "team_roles_markup" = markupValue cell := by
    cases hcell with
    | cell hcolumn =>
      rw [markupOf_recordAt hcolumn hplain] at hmarked
      exact (Except.ok.inj hmarked).symm
    | absent hnone =>
      rw [markupOf_recordAt_none hnone hplain.2] at hmarked
      exact (Except.ok.inj hmarked).symm
  constructor
  · simp only [Meeting.ofRecord, Datum.textAt, htext, Datum.text?, Option.getD_some]
  · simp only [Meeting.ofRecord, hmarkup, markupValue]
    cases cell.cellMarkup?.filter (!·.isEmpty) <;> rfl

end Sheet

def Datum.IsBlankNote (cell : Datum) : Prop :=
  ∃ runs, cell = .rich runs ∧ runs ≠ [] ∧ (∀ run ∈ runs, OnlyOf IsDocumentChar run.text) ∧
    Text.trim cell.cellText = ""

namespace Meeting

variable {m : Meeting}

theorem trim_roleLabels_ne (h : m.roles ≠ []) :
    Text.trim (", ".intercalate m.roleLabels) ≠ "" := by
  obtain ⟨r, rest, h⟩ := List.exists_cons_of_ne_nil h
  have hlabel : (r.label.toList.any fun c => Text.isBlank c == false) = true := by
    cases r <;> decide
  obtain ⟨c, hc, hfilled⟩ := List.any_eq_true.mp hlabel
  have hmem : c ∈ (", ".intercalate m.roleLabels).toList := by
    rw [roleLabels, h, List.map_cons]
    cases rest with
    | nil => simpa using hc
    | cons next rest =>
      rw [List.map_cons, String.intercalate_cons_cons]
      simp [hc]
  intro hblank
  rw [Text.trim_eq_empty_iff.mp hblank c hmem] at hfilled
  exact Bool.false_ne_true hfilled

end Meeting

namespace Documents.Summary

variable {m : Meeting} {cell : Datum}

theorem isVisible_plainRoles (hroles : m.roles ≠ []) (htext : Text.trim m.rolesText = m.rolesText) :
    IsVisible (shownRuns (plainRoles m)) := by
  rw [isVisible_shownRuns, plainRoles]
  split
  · exact Meeting.trim_roleLabels_ne hroles
  · next hne =>
    rw [htext]
    exact mt String.isEmpty_iff.mpr hne

theorem shownRoles_of_note
    (hmarkup : m.rolesMarkup = cell.cellMarkup?.filter (!·.isEmpty)) :
    (∃ runs, cell = .rich runs ∧ runs ≠ [] ∧ (∀ run ∈ runs, OnlyOf IsDocumentChar run.text) ∧
      shownRoles m = ((runs.filter fun run => run.text ≠ "").map Markup.TextRun.unified).map
        shownFormatted) ∨
    ((∀ runs, cell = .rich runs → runs ≠ [] → ¬ ∀ run ∈ runs, OnlyOf IsDocumentChar run.text) ∧
      shownRoles m = shownRuns (plainRoles m)) := by
  have hfilter : m.rolesMarkup.filter (!·.isEmpty) = cell.cellMarkup?.filter (!·.isEmpty) := by
    simp only [hmarkup, Option.filter_filter, Bool.and_self]
  cases hcell : cell.cellMarkup?.filter (!·.isEmpty) with
  | none =>
    refine .inr ⟨fun runs hrich hne _ => ?_, ?_⟩
    · rw [Datum.filter_cellMarkup?_eq_some.mpr ⟨runs, hrich, hne, rfl⟩] at hcell
      cases hcell
    · simp only [shownRoles, hfilter, hcell]
  | some markup =>
    obtain ⟨runs, rfl, hne, rfl⟩ := Datum.filter_cellMarkup?_eq_some.mp hcell
    by_cases hlegal : ∀ run ∈ runs, OnlyOf IsDocumentChar run.text
    · refine .inl ⟨runs, rfl, hne, hlegal, ?_⟩
      simp only [shownRoles, hfilter, hcell, Markup.readRuns_written, if_pos hlegal]
    · refine .inr ⟨fun other hrich _ => ?_, ?_⟩
      · cases hrich
        exact hlegal
      · simp only [shownRoles, hfilter, hcell, Markup.readRuns_written, if_neg hlegal]

theorem isVisible_shownRoles (htext : m.rolesText = Text.trim cell.cellText)
    (hmarkup : m.rolesMarkup = cell.cellMarkup?.filter (!·.isEmpty)) (hroles : m.roles ≠ []) :
    IsVisible (shownRoles m) ↔ ¬ cell.IsBlankNote := by
  rcases shownRoles_of_note hmarkup with ⟨runs, rfl, hne, hlegal, hshown⟩ | ⟨hplain, hshown⟩
  · rw [hshown, isVisible_shownFormatted, not_iff_not]
    refine ⟨fun hblank => ⟨runs, rfl, hne, hlegal, hblank⟩, ?_⟩
    rintro ⟨-, -, -, -, hblank⟩
    exact hblank
  · refine iff_of_true ?_ fun ⟨runs, hrich, hne, hlegal, _⟩ => hplain runs hrich hne hlegal
    rw [hshown]
    exact isVisible_plainRoles hroles (by rw [htext, Text.trim_trim])

theorem shownRoles_of_blank (htext : m.rolesText = Text.trim cell.cellText)
    (hmarkup : m.rolesMarkup = cell.cellMarkup?.filter (!·.isEmpty)) (hroles : m.roles ≠ [])
    (hblank : Text.trim cell.cellText = "") (hnote : ¬ cell.IsBlankNote) :
    shownRoles m = [shownRun (", ".intercalate m.roleLabels)] := by
  rcases shownRoles_of_note hmarkup with ⟨runs, rfl, hne, hlegal, -⟩ | ⟨-, hshown⟩
  · exact absurd ⟨runs, rfl, hne, hlegal, hblank⟩ hnote
  · rw [hshown]
    exact (isPlainCell m).labels (htext.trans hblank) hroles

end Documents.Summary

namespace Visit

open Documents (IsVisible Writes shownRun)
open Documents.Summary (generate inOrder roleCell roleCells shownRoles)

variable {w : Workbook} {o : LoadOptions} {v : Visit} {m : Meeting} {messages after : List Message}

theorem Drafted.exists_makesMeeting {schedule roster rooms : Sheet}
    (h : Drafted o schedule roster rooms v) (hm : m ∈ v.meetings) :
    ∃ header : Nat, o.meetingsHeader = header ∧
      ∃ row ∈ schedule.recordRows header, schedule.MakesMeeting header row m := by
  obtain ⟨_, hmem, -, r, heval, rfl⟩ := h.exists_row hm
  have hheader : 0 ≤ o.meetingsHeader := by
    by_contra hneg
    rw [Sheet.records_of_neg (not_le.mp hneg)] at hmem
    cases hmem
  obtain ⟨header, hheader⟩ := Int.eq_ofNat_of_zero_le hheader
  rw [hheader, Sheet.records_eq] at hmem
  obtain ⟨row, hrow, rfl⟩ := List.mem_map.mp hmem
  exact ⟨header, hheader, row, hrow, r, heval, rfl⟩

/-- The cell of the roles shows something for every meeting that has any, unless its annotation is a
formatted one of blanks only. Whatever other annotation shows nothing, the labels of the roles stand
in its place. -/
theorem loaded_roleCells (h : (load w o).outcome messages = (.ok v, after))
    (settings : DocumentSettings) :
    (∀ m ∈ v.meetings, m.roles ≠ [] → ∃ (s : Sheet) (header row : Nat) (cell : Datum),
      w.sheet o.sheets.meetings = .ok s ∧ o.meetingsHeader = header ∧
      s.MakesMeeting header row m ∧ s.HasNote header row cell ∧
      (IsVisible (shownRoles m) ↔ ¬ cell.IsBlankNote) ∧
      (Text.trim cell.cellText = "" → ¬ cell.IsBlankNote →
        shownRoles m = [shownRun (", ".intercalate m.roleLabels)])) ∧
    (inOrder v).Perm v.meetings ∧
    Writes (generate true v settings) (¬ (w.TextsOf IsLegal ∧ settings.TextsOf IsLegal))
      fun body _ => roleCells body = (inOrder v).map roleCell := by
  have hread := load_eq_ok h
  obtain ⟨schedule, _, _, hschedule, -, -, hdrafted, -⟩ := sheets_of_read hread
  refine ⟨fun m hm hroles => ?_, Documents.perm_slotsByDay v, ?_⟩
  · obtain ⟨header, hheader, row, -, hmeeting⟩ := hdrafted.exists_makesMeeting hm
    obtain ⟨cell, hcell⟩ := schedule.exists_hasNote header row
    obtain ⟨htext, hmarkup⟩ := hmeeting.note hcell
    exact ⟨schedule, header, row, cell, hschedule, hheader, hmeeting, hcell,
      Documents.Summary.isVisible_shownRoles htext hmarkup hroles,
      Documents.Summary.shownRoles_of_blank htext hmarkup hroles⟩
  · refine Documents.writes_of_gives (Documents.Summary.generate_gives true v settings)
      (fun hno => ?_) Documents.Summary.roleCells_body
    obtain ⟨hw, hsettings⟩ := not_not.mp hno
    exact Documents.Summary.generate_succeeds (showable_of_read hread hw) hsettings true

def noteBook : Workbook := [
  { name := "Proposed Meetings-MSCHE Team"
    rows := [
      ["Date", "Time", "Meeting Location", "Zoom Room Option", "Zoom Link",
        "Interview Assignments", "Team Chair", "SI", "SII", "SIII", "SIV", "SV", "SVI", "SVII",
        "Individuals", "Hide Names", "Team Roles"].map .text,
      ["Monday, June 2, 2025", "9:00-10:00 a.m.", "", "", "", "Opening", "x", "", "", "", "", "",
        "", "", "", ""].map .text ++ [.rich [⟨" ", { bold := true }⟩, ⟨"  ", { italics := true }⟩]],
      ["Monday, June 2, 2025", "9:00-10:00 a.m.", "", "", "", "Tour", "x", "", "", "", "", "",
        "", "", "", "", "  "].map .text] },
  { name := "Participant List"
    rows := [["PFX", "First Name", "Last Name", "Title /Involvement", "Staff", "Faculty", "Email",
      "Team Member"].map .text] },
  { name := "Zoom Rooms"
    rows := [["Zoom Room Name", "Link"].map .text] }]

def noteOpening : Meeting where
  name := "Opening"
  date := "Monday, June 2, 2025"
  day := Calendar.Date.ofParts? 2025 6 2
  time := "9:00-10:00 a.m."
  start := (Calendar.TimeOfDay.ofClock 9 0).toOption
  finish := (Calendar.TimeOfDay.ofClock 10 0).toOption
  location := ""
  zoomRoom := ""
  roles := [.chair]
  rolesMarkup := some "<r><rPr><b /></rPr><t> </t></r><r><rPr><i /></rPr><t>  </t></r>"

def noteRead : Visit where
  meetings := [noteOpening, { noteOpening with name := "Tour", rolesMarkup := none }]
  participants := []
  zoomRooms := []

theorem load_noteBook : ∃ after, (load noteBook {}).outcome [] = (.ok noteRead, after) :=
  exists_outcome_of_toOption (by decide)

theorem noteBook_legal : noteBook.TextsOf IsLegal := by
  unfold Workbook.TextsOf
  decide

theorem loaded_roleCells_noteBook :
    (∃ (s : Sheet) (header row : Nat) (cell : Datum), s.MakesMeeting header row noteOpening ∧
      s.HasNote header row cell ∧ cell.IsBlankNote) ∧
    ∃ d said, (generate true noteRead {}).outcome [] = (.ok d, said) ∧
      (roleCells d.body).map (·.paragraphs.flatMap (·.runs)) =
        [[{ text := " ", bold := some true }, { text := "  ", italics := some true }],
          [{ text := "Team Chair" }]] := by
  obtain ⟨after, hload⟩ := load_noteBook
  obtain ⟨hmeetings, -, hdocument⟩ := loaded_roleCells hload {}
  constructor
  · obtain ⟨s, header, row, cell, -, -, hmeeting, hcell, hvisible, -⟩ :=
      hmeetings noteOpening List.mem_cons_self (by decide)
    have hhidden : ¬ IsVisible (shownRoles noteOpening) := by decide +kernel
    exact ⟨s, header, row, cell, hmeeting, hcell, not_not.mp (mt hvisible.mpr hhidden)⟩
  · obtain ⟨d, said, hd, hcells⟩ :=
      hdocument.exists_ok (not_not.mpr ⟨noteBook_legal, Documents.crossBook_legal.2⟩) []
    exact ⟨d, _, hd, by rw [hcells]; decide +kernel⟩

/-- The meeting has a role and its annotation has no text, but the blanks of the annotation stand
where the label of the role does for the other meeting. -/
theorem formatted_blanks_stand : ∃ after d said,
    (load noteBook {}).outcome [] = (.ok noteRead, after) ∧
    (noteOpening ∈ noteRead.meetings ∧ noteOpening.roles = [.chair] ∧
      noteOpening.rolesText = "" ∧ ¬ IsVisible (shownRoles noteOpening)) ∧
    (generate true noteRead {}).outcome [] = (.ok d, said) ∧
    (roleCells d.body).map (·.paragraphs.flatMap (·.runs)) =
      [[{ text := " ", bold := some true }, { text := "  ", italics := some true }],
        [{ text := "Team Chair" }]] := by
  obtain ⟨after, hload⟩ := load_noteBook
  have hdocument : ((generate true noteRead {}).outcome []).1.toOption.map
      (fun d => (roleCells d.body).map (·.paragraphs.flatMap (·.runs))) =
      some [[{ text := " ", bold := some true }, { text := "  ", italics := some true }],
        [{ text := "Team Chair" }]] := by decide +kernel
  obtain ⟨d, hd, hcells⟩ := Option.map_eq_some_iff.mp hdocument
  obtain ⟨said, hsaid⟩ := exists_outcome_of_toOption hd
  exact ⟨after, d, said, hload, ⟨List.mem_cons_self, rfl, rfl, by decide +kernel⟩, hsaid, hcells⟩

end Visit
end SiteVisit
