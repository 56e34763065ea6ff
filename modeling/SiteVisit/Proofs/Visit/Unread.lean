import SiteVisit.Proofs.Visit.Usable
import SiteVisit.Proofs.Workbook.Headers

/-!
Cells that have no influence on a visit: those of hidden rows below the headers, and in the schedule
those beside an empty date. Two workbooks that differ in nothing else are loaded alike.
-/

namespace SiteVisit

namespace Spec.ReadsTitles

variable {name : String}

theorem cell (h : isTitle name) : (Spec.cell name).ReadsTitles := column h

theorem cellThen (h : isTitle name) (f : Transform) : (Spec.cellThen name f).ReadsTitles :=
  pipeline (cell h) _

end Spec.ReadsTitles

theorem readsTitles_participant (fromColumn : Bool) :
    (Spec.nested (participantFields fromColumn)).ReadsTitles := by
  apply Spec.ReadsTitles.nested
  simp only [participantFields, List.forall_mem_cons]
  refine ⟨fun _ => .cell (by decide), fun _ => .cell (by decide), fun _ => .cell (by decide),
    fun _ => .cell (by decide), fun _ => .cellThen (by decide) _,
    fun _ => .cellThen (by decide) _, fun _ => .cell (by decide), .derived, .derived, ?_,
    List.forall_mem_nil _⟩
  cases fromColumn with
  | true => exact fun _ => .cellThen (by decide) _
  | false => exact fun _ => .rowFunction fun _ => rfl

theorem isTitle_of_zoomLink {name : String}
    (h : (Text.Pattern.mk "^Zoom Link" false).isIn name) : isTitle name := by
  have hatoms : (Text.Pattern.mk "^Zoom Link" false).atoms =
      .start :: .char 'Z' :: Text.Pattern.readAtoms "oom Link".toList := rfl
  obtain ⟨c, cs, hname, hc⟩ := Text.Pattern.head_of_isIn hatoms h
  obtain rfl : 'Z' = c := by simpa [Text.Pattern.sameChar] using hc
  rw [isTitle, hname]
  rfl

theorem isTitle_label (r : Role) : isTitle r.label := by
  cases r <;> decide

theorem readsTitles_meeting : (Spec.nested meetingFields).ReadsTitles := by
  apply Spec.ReadsTitles.nested
  simp only [meetingFields, List.cons_append, List.nil_append, List.forall_mem_cons,
    List.forall_mem_append, List.forall_mem_map]
  exact ⟨fun _ => .cell (by decide), fun _ => .cellThen (by decide) _,
    fun _ => .cellThen (by decide) _, fun _ => .cell (by decide),
    fun _ => .cellThen (by decide) _, .derived, .derived,
    fun _ => .pattern fun _ => isTitle_of_zoomLink, fun _ => .cell (by decide),
    ⟨fun r _ _ => .cellThen (isTitle_label r) _, fun _ => .cellThen (by decide) _,
      fun _ => .cellThen (by decide) _, fun _ => .column (by decide),
      fun _ => .rowFunction (markupOf_titled (by decide)), List.forall_mem_nil _⟩⟩

theorem readsTitles_zoomRoom : (Spec.nested zoomRoomFields).ReadsTitles := by
  apply Spec.ReadsTitles.nested
  simp only [zoomRoomFields, List.forall_mem_cons]
  exact ⟨fun _ => .column (by decide), fun _ => .column (by decide), List.forall_mem_nil _⟩

section Readings

variable {rows rows' : List NumberedRow}

theorem readParticipants_congr (h : rows.map NumberedRow.titled = rows'.map NumberedRow.titled)
    (fromColumn : Bool) (sheet : String) :
    readParticipants rows fromColumn sheet = readParticipants rows' fromColumn sheet := by
  simp only [readParticipants, mapRows_congr (readsTitles_participant fromColumn) h]

theorem readZoomRooms_congr (h : rows.map NumberedRow.titled = rows'.map NumberedRow.titled)
    (sheet : String) :
    readZoomRooms rows sheet = readZoomRooms rows' sheet := by
  simp only [readZoomRooms, mapRows_congr readsTitles_zoomRoom h]

end Readings

namespace Sheet

def IsDateColumn (s : Sheet) (header column : Nat) : Prop :=
  (headerNames (s.line s.width header).values)[column]? = some "Date"

def isUndated (s : Sheet) (dateColumn row : Nat) : Bool :=
  Text.trim (s.cell row dateColumn).cellText == ""

variable {s : Sheet} {header dateColumn : Nat}

theorem IsDateColumn.lt_width (h : s.IsDateColumn header dateColumn) : dateColumn < s.width := by
  have hlt := (List.getElem?_eq_some_iff.mp h).1
  rw [headerNames, length_headerNamesFrom] at hlt
  simpa [line] using hlt

theorem IsDateColumn.trim_cell (h : s.IsDateColumn header dateColumn) :
    Text.trim (s.cell header dateColumn).cellText = "Date" := by
  have htrim := trim_of_headerNamesFrom (by decide) h
  rwa [← Line.value, line_value s h.lt_width] at htrim

theorem isDated_recordAt (h : s.IsDateColumn header dateColumn) (sheet : String) (row : Nat) :
    isDated sheet (s.recordAt header s.width row) = .ok (!s.isUndated dateColumn row) := by
  have hcell := Line.selectHeader_record h
    (fun i hi => headerNamesFrom_injective (by decide) hi h) (s.line s.width row) true
  rw [line_value s h.lt_width] at hcell
  rw [isDated, recordAt, hcell]
  rfl

end Sheet

theorem datedRows_map {α : Type} {f : α → NumberedRow} {dated : α → Bool} {sheet : String}
    {as : List α} (h : ∀ a ∈ as, isDated sheet (f a) = .ok (dated a)) :
    datedRows sheet (as.map f) = .ok ((as.filter dated).map f) := by
  induction as with
  | nil => rfl
  | cons a rest ih =>
    obtain ⟨ha, hrest⟩ := List.forall_mem_cons.mp h
    simp only [List.map_cons, datedRows, ha, ih hrest, ok_bind, pure_eq_ok, List.filter_cons]
    split <;> rfl

theorem readMeetings_eq {s : Sheet} {header dateColumn : Nat}
    (h : s.IsDateColumn header dateColumn) (sheet : String) :
    readMeetings (s.records header) sheet =
      (mapRows (.nested meetingFields) (some sheet)
        (((s.recordRows header).filter fun row => !s.isUndated dateColumn row).map
          (s.recordAt header s.width))).map fun records => records.map Meeting.ofRecord := by
  rw [readMeetings, Sheet.records_eq, datedRows_map fun row _ => Sheet.isDated_recordAt h sheet row]
  rfl

section Roles

theorem assignColumns_blank (headers : Line) (column n : Nat) :
    assignColumns headers column (List.replicate n "") = pure 0 := by
  induction n generalizing column with
  | zero => rfl
  | succ n ih =>
    have hblank : assignColumn headers column "" = pure false := rfl
    simp only [List.replicate_succ, assignColumns, hblank, ih, pure_bind, Bool.false_eq_true,
      if_false]

theorem assignColumns_append_blank (headers : Line) (column : Nat) (cells : List String) (n : Nat) :
    assignColumns headers column (cells ++ List.replicate n "") =
      assignColumns headers column cells := by
  induction cells generalizing column with
  | nil => exact assignColumns_blank headers column n
  | cons cell rest ih => simp only [List.cons_append, assignColumns, ih]

theorem assignColumns_widened (headers : Line) (more column : Nat) (cells : List String) :
    assignColumns (headers.widened more) column cells = assignColumns headers column cells := by
  induction cells generalizing column with
  | nil => rfl
  | cons cell rest ih =>
    simp only [assignColumns, assignColumn, Line.widened_value, ih]

theorem assignColumns_line {s : Sheet} {width : Nat} (hwidth : s.width ≤ width)
    (header name : Nat) :
    assignColumns (s.line width header) 0 (s.line width name).values =
      assignColumns (s.line s.width header) 0 (s.line s.width name).values := by
  obtain ⟨more, rfl⟩ := Nat.exists_eq_add_of_le hwidth
  rw [Sheet.line_widened, Sheet.line_widened, assignColumns_widened]
  exact assignColumns_append_blank _ _ _ more

end Roles

def RoleSource.UpTo (last : Int) : RoleSource → Prop
  | .participantsTable => True
  | .meetingsTable nameRow headerRow => nameRow ≤ last ∧ headerRow ≤ last

/-- A cell that no use of its sheet looks at: it stands in a hidden row below the headers, or in the
schedule in a row without a date. A sheet with several uses has to be passed over by each. -/
def Sheet.IsUnread (o : LoadOptions) (dateColumn : Nat) (s : Sheet) (row column : Nat) : Prop :=
  (s.name = o.sheets.participants ∨ s.name = o.sheets.zoomRooms →
    0 < row ∧ s.isHidden (row + 1)) ∧
  (s.name = o.sheets.meetings → o.meetingsHeader < row ∧
    (s.isHidden (row + 1) ∨ column ≠ dateColumn ∧ s.isUndated dateColumn row))

structure Sheet.SameRead (o : LoadOptions) (dateColumn : Nat) (s t : Sheet) : Prop where
  name : s.name = t.name
  hidden : s.hidden = t.hidden
  cell : ∀ row column, ¬ s.IsUnread o dateColumn row column → s.cell row column = t.cell row column

def Workbook.SameRead (o : LoadOptions) (dateColumn : Nat) (w w' : Workbook) : Prop :=
  List.Forall₂ (Sheet.SameRead o dateColumn) w w'

namespace Sheet.SameRead

variable {o : LoadOptions} {dateColumn header : Nat} {s t : Sheet}

theorem cell_of_table (h : s.SameRead o dateColumn t)
    (hname : s.name = o.sheets.participants ∨ s.name = o.sheets.zoomRooms) {row : Nat}
    (hrow : row = 0 ∨ s.isHidden (row + 1) = false) (column : Nat) :
    s.cell row column = t.cell row column := by
  refine h.cell row column fun hunread => ?_
  obtain ⟨hpos, hhidden⟩ := hunread.1 hname
  rcases hrow with rfl | hvisible
  · exact absurd hpos (lt_irrefl 0)
  · rw [hvisible] at hhidden
    cases hhidden

theorem titled_records (h : s.SameRead o dateColumn t)
    (hname : s.name = o.sheets.participants ∨ s.name = o.sheets.zoomRooms) :
    (s.records 0).map NumberedRow.titled = (t.records 0).map NumberedRow.titled := by
  have hrecords := titled_records_congr (p := fun _ => true) (q := fun _ => true) h.hidden
    (h.cell_of_table hname (.inl rfl)) (fun _ _ _ => rfl)
    (fun row _ hvisible _ => h.cell_of_table hname (.inr hvisible))
  simp only [List.filter_true] at hrecords
  rw [show ((0 : Int)) = ((0 : Nat) : Int) from rfl, records_eq, records_eq, hrecords]

section Schedule

variable (h : s.SameRead o dateColumn t) (hname : s.name = o.sheets.meetings)
  (hheader : o.meetingsHeader = header)

include h hname hheader

theorem cell_of_schedule {row column : Nat}
    (hread : row ≤ header ∨ s.isHidden (row + 1) = false ∧
      (column = dateColumn ∨ s.isUndated dateColumn row = false)) :
    s.cell row column = t.cell row column := by
  refine h.cell row column fun hunread => ?_
  obtain ⟨hbelow, hskipped⟩ := hunread.2 hname
  rw [hheader] at hbelow
  grind

theorem isDateColumn (hdate : s.IsDateColumn header dateColumn) :
    t.IsDateColumn header dateColumn := by
  have hwide := (headerNames_line (le_max_left s.width t.width) (by decide)).mpr hdate
  rw [line_congr fun column => h.cell_of_schedule hname hheader (.inl le_rfl)] at hwide
  exact (headerNames_line (le_max_right s.width t.width) (by decide)).mp hwide

theorem readMeetings (hdate : s.IsDateColumn header dateColumn) (sheet : String) :
    readMeetings (s.records header) sheet = readMeetings (t.records header) sheet := by
  rw [readMeetings_eq hdate, readMeetings_eq (h.isDateColumn hname hheader hdate)]
  refine congrArg _ (mapRows_congr readsTitles_meeting (titled_records_congr h.hidden
    (fun column => h.cell_of_schedule hname hheader (.inl le_rfl)) ?_ ?_))
  · intro row _ hvisible
    rw [isUndated, isUndated, h.cell_of_schedule hname hheader (.inr ⟨hvisible, .inl rfl⟩)]
  · intro row _ hvisible hdated column
    exact h.cell_of_schedule hname hheader (.inr ⟨hvisible, .inr (by simpa using hdated)⟩)

theorem header_lt_height (hdate : s.IsDateColumn header dateColumn) : header < t.height := by
  have htrim := (h.isDateColumn hname hheader hdate).trim_cell
  by_contra hbeyond
  rw [cellText_outside (.inl (not_lt.mp hbeyond)), Text.trim_empty] at htrim
  exact absurd htrim (by decide)

theorem lineAt? (hdate : s.IsDateColumn header dateColumn) (hheight : header < s.height)
    {position : Int} (hposition : position ≤ header) :
    lineAt? s.allLines position = none ∧ lineAt? t.allLines position = none ∨
      ∃ row : Nat, lineAt? s.allLines position = some (s.line s.width row) ∧
        lineAt? t.allLines position = some (t.line t.width row) ∧
        ∀ width, s.line width row = t.line width row := by
  rcases lt_or_ge position 0 with hneg | hpos
  · have hnone (u : Sheet) : SiteVisit.lineAt? u.allLines position = none := by
      by_contra hsome
      obtain ⟨l, hl⟩ := Option.ne_none_iff_exists'.mp hsome
      obtain ⟨row, hrow, -⟩ := exists_of_lineAt? hl
      omega
    exact .inl ⟨hnone s, hnone t⟩
  · obtain ⟨row, rfl⟩ := Int.eq_ofNat_of_zero_le hpos
    have hrow : row ≤ header := by omega
    refine .inr ⟨row, ?_, ?_, line_congr fun column =>
      h.cell_of_schedule hname hheader (.inl hrow)⟩
    · rw [lineAt?_allLines, if_pos (hrow.trans_lt hheight)]
    · rw [lineAt?_allLines,
        if_pos (hrow.trans_lt (h.header_lt_height hname hheader hdate))]

theorem withRoles (hdate : s.IsDateColumn header dateColumn) (hheight : header < s.height)
    {source : RoleSource} (hsource : source.UpTo header) (participants : List Participant) :
    withRoles source s participants = withRoles source t participants := by
  cases source with
  | participantsTable => rfl
  | meetingsTable nameRow headerRow =>
    have hassign : assignRoles s.allLines nameRow headerRow s.name =
        assignRoles t.allLines nameRow headerRow t.name := by
      rw [← h.name]
      rcases h.lineAt? hname hheader hdate hheight hsource.1 with
        ⟨hs, ht⟩ | ⟨names, hs, ht, hnames⟩
      · simp only [assignRoles, hs, ht]
      · rcases h.lineAt? hname hheader hdate hheight hsource.2 with
          ⟨hs', ht'⟩ | ⟨headers, hs', ht', hheaders⟩
        · simp only [assignRoles, hs, ht, hs', ht']
        · simp only [assignRoles, hs, ht, hs', ht']
          rw [← assignColumns_line (le_max_left s.width t.width), hnames, hheaders,
            assignColumns_line (le_max_right s.width t.width)]
    simp only [SiteVisit.withRoles, hassign]

end Schedule
end Sheet.SameRead

namespace Workbook.SameRead

variable {o : LoadOptions} {dateColumn : Nat} {w w' : Workbook}

theorem names (h : w.SameRead o dateColumn w') : w.map (·.name) = w'.map (·.name) := by
  induction h with
  | nil => rfl
  | cons hsheet _ ih => rw [List.map_cons, List.map_cons, hsheet.name, ih]

theorem find? (h : w.SameRead o dateColumn w') (name : String) :
    w.find? (·.name == name) = none ∧ w'.find? (·.name == name) = none ∨
      ∃ s t, w.find? (·.name == name) = some s ∧ w'.find? (·.name == name) = some t ∧
        s.SameRead o dateColumn t := by
  induction h with
  | nil => exact .inl ⟨rfl, rfl⟩
  | @cons s t _ _ hsheet _ ih =>
    by_cases hname : s.name = name
    · refine .inr ⟨s, t, List.find?_cons_of_pos (by simpa using hname),
        List.find?_cons_of_pos (by simpa [← hsheet.name] using hname), hsheet⟩
    · rwa [List.find?_cons_of_neg (by simpa using hname),
        List.find?_cons_of_neg (by simpa [← hsheet.name] using hname)]

theorem sheet (h : w.SameRead o dateColumn w') (name : String) :
    (∃ f, w.sheet name = .error f ∧ w'.sheet name = .error f) ∨
      ∃ s t, w.sheet name = .ok s ∧ w'.sheet name = .ok t ∧ s.name = name ∧
        s.SameRead o dateColumn t := by
  rcases h.find? name with ⟨hw, hw'⟩ | ⟨s, t, hs, ht, hsheet⟩
  · refine .inl ⟨_, by rw [Workbook.sheet, hw], by rw [Workbook.sheet, hw', h.names]⟩
  · refine .inr ⟨s, t, by rw [Workbook.sheet, hs], by rw [Workbook.sheet, ht], ?_, hsheet⟩
    simpa using List.find?_some hs

end Workbook.SameRead

namespace Visit

theorem read_of_sameRead {w w' : Workbook} {o : LoadOptions} {schedule : Sheet} {head : Line}
    {dateColumn : Nat} (hschedule : w.sheet o.sheets.meetings = .ok schedule)
    (hheader : lineAt? schedule.allLines o.meetingsHeader = some head)
    (hdate : (headerNames head.values)[dateColumn]? = some "Date")
    (hroles : o.roleSource.UpTo o.meetingsHeader) (h : w.SameRead o dateColumn w') :
    read w o = read w' o := by
  obtain ⟨header, hposition, hheight, rfl⟩ := Sheet.exists_of_lineAt? hheader
  rw [hposition] at hroles
  rcases h.sheet o.sheets.meetings with ⟨f, hs, -⟩ | ⟨s, t, hs, ht, hname, hsame⟩
  · rw [hschedule] at hs
    cases hs
  obtain rfl : schedule = s := Except.ok.inj (hschedule.symm.trans hs)
  rcases h.sheet o.sheets.participants with ⟨f, hs', ht'⟩ | ⟨s', t', hs', ht', hname', hroster⟩
  · simp only [read, hs, ht, hs', ht', ok_bind, error_bind]
  rcases h.sheet o.sheets.zoomRooms with ⟨f, hr, hr'⟩ | ⟨r, r', hr, hr', hroom, hrooms⟩
  · simp only [read, hs, ht, hs', ht', hr, hr', ok_bind, error_bind]
  have hparticipants := readParticipants_congr (hroster.titled_records (.inl hname'))
  have hzoomRooms := readZoomRooms_congr (hrooms.titled_records (.inr hroom))
  simp only [read, hs, ht, hs', ht', hr, hr', ok_bind, hposition, hparticipants, hzoomRooms,
    hsame.readMeetings hname hposition hdate, hsame.withRoles hname hposition hdate hheight hroles]

/-- Hidden and undated rows have no influence: whatever stands in the cells that are not read, the
same visit is loaded with the same messages, or loading ends with the same fault. -/
theorem load_of_sameRead {w w' : Workbook} {o : LoadOptions} {schedule : Sheet} {head : Line}
    {dateColumn : Nat} (hschedule : w.sheet o.sheets.meetings = .ok schedule)
    (hheader : lineAt? schedule.allLines o.meetingsHeader = some head)
    (hdate : (headerNames head.values)[dateColumn]? = some "Date")
    (hroles : o.roleSource.UpTo o.meetingsHeader) (h : w.SameRead o dateColumn w')
    (messages : List Message) : (load w o).outcome messages = (load w' o).outcome messages := by
  rw [load, load, read_of_sameRead hschedule hheader hdate hroles h]

def draftSchedule (hidden undated : List Datum) : Sheet where
  name := "Proposed Meetings-MSCHE Team"
  rows := [
    ["Date", "Time", "Meeting Location", "Zoom Room Option", "Zoom Link", "Interview Assignments",
      "Team Chair", "SI", "SII", "SIII", "SIV", "SV", "SVI", "SVII", "Individuals",
      "Hide Names"].map .text,
    ["Monday, June 2, 2025", "9:00-10:00 a.m.", "Hall", "Primary Room", "Red", "Opening", "x",
      "", "", "", "", "", "", "", "Bo Ek", ""].map .text,
    hidden, .text " " :: undated]
  hidden := [3]

def draftBook (hidden undated : List Datum) : Workbook := [
  draftSchedule hidden undated,
  { name := "Participant List"
    rows := [
      ["PFX", "First Name", "Last Name", "Title /Involvement", "Staff", "Faculty", "Email",
        "Team Member"].map .text,
      ["", "Ann", "Lee", "Chair", "", "", "", "Team Chair"].map .text,
      ["", "Bo", "Ek", "Dean", "x", "", "", ""].map .text,
      hidden]
    hidden := [4] },
  { name := "Zoom Rooms"
    rows := [["Zoom Room Name", "Link"].map .text, ["Red", "https://zoom.us/j/1"].map .text, hidden]
    hidden := [3] }]

theorem sameRead_draftBook (hidden undated hidden' undated' : List Datum) :
    (draftBook hidden undated).SameRead {} 0 (draftBook hidden' undated') := by
  have hschedule : ¬ ("Proposed Meetings-MSCHE Team" = "Participant List" ∨
      "Proposed Meetings-MSCHE Team" = "Zoom Rooms") := by decide
  have hroster : "Participant List" ≠ "Proposed Meetings-MSCHE Team" := by decide
  have hrooms : "Zoom Rooms" ≠ "Proposed Meetings-MSCHE Team" := by decide
  have hblank : (Text.trim (Text.trim " ") == "") = true := by decide
  refine .cons ⟨rfl, rfl, ?_⟩ (.cons ⟨rfl, rfl, ?_⟩ (.cons ⟨rfl, rfl, ?_⟩ .nil))
  · intro row column hread
    match row, column with
    | 0, _ => rfl
    | 1, _ => rfl
    | 2, _ =>
      exact (hread ⟨fun h => (hschedule h).elim, fun _ => ⟨Int.natCast_pos.mpr (Nat.succ_pos 1),
        .inl rfl⟩⟩).elim
    | 3, 0 => rfl
    | 3, column + 1 =>
      exact (hread ⟨fun h => (hschedule h).elim,
        fun _ => ⟨Int.natCast_pos.mpr (Nat.succ_pos 2), .inr ⟨Nat.succ_ne_zero column, hblank⟩⟩⟩).elim
    | row + 4, _ => rfl
  · intro row column hread
    match row with
    | 0 => rfl
    | 1 => rfl
    | 2 => rfl
    | 3 => exact (hread ⟨fun _ => ⟨Nat.succ_pos 2, rfl⟩, fun h => (hroster h).elim⟩).elim
    | row + 4 => rfl
  · intro row column hread
    match row with
    | 0 => rfl
    | 1 => rfl
    | 2 => exact (hread ⟨fun _ => ⟨Nat.succ_pos 1, rfl⟩, fun h => (hrooms h).elim⟩).elim
    | row + 3 => rfl

/-- Formatted text and cells far to the right in such rows change nothing. -/
theorem load_draftBook :
    (load (draftBook [] []) {}).outcome [] =
        (load (draftBook (List.replicate 20 (.rich [⟨"Date", {}⟩])) (List.replicate 20 (.text "x")))
          {}).outcome [] ∧
      ((load (draftBook [] []) {}).outcome []).1.toOption = some tourRead := by
  constructor
  · have hsheet : (draftBook [] []).sheet (LoadOptions.sheets {}).meetings =
        .ok (draftSchedule [] []) := rfl
    have hheader : lineAt? (draftSchedule [] []).allLines (LoadOptions.meetingsHeader {}) =
        some ((draftSchedule [] []).line 16 0) := by decide
    have hdate : (headerNames ((draftSchedule [] []).line 16 0).values)[0]? = some "Date" := by
      decide
    exact load_of_sameRead hsheet hheader hdate trivial (sameRead_draftBook _ _ _ _) []
  · decide

end Visit
end SiteVisit
