import SiteVisit.Proofs.Visit.Columns
import SiteVisit.Proofs.Visit.Unread

namespace SiteVisit

namespace Sheet

variable {s : Sheet} {header dateColumn row : Nat}

def meetingRows (s : Sheet) (header dateColumn : Nat) : List Nat :=
  (List.range s.height).filter fun row =>
    header < row && !s.isHidden (row + 1) && !s.isUndated dateColumn row

theorem lt_height_of_dated (h : s.isUndated dateColumn row = false) : row < s.height := by
  by_contra houtside
  rw [isUndated, cellText_outside (.inl (not_lt.mp houtside))] at h
  cases h

theorem mem_meetingRows : row ∈ s.meetingRows header dateColumn ↔
    header < row ∧ s.isHidden (row + 1) = false ∧ s.isUndated dateColumn row = false := by
  simp only [meetingRows, List.mem_filter, List.mem_range, Bool.and_eq_true, decide_eq_true_eq,
    Bool.not_eq_true', and_assoc]
  exact ⟨And.right, fun h => ⟨lt_height_of_dated h.2.2, h⟩⟩

theorem datedRecordRows (s : Sheet) (header dateColumn : Nat) :
    ((s.recordRows header).filter fun row => !s.isUndated dateColumn row) =
      s.meetingRows header dateColumn := by
  rw [recordRows, meetingRows, List.filter_filter]
  refine List.filter_congr fun row _ => ?_
  cases hdated : s.isUndated dateColumn row with
  | true => rw [Bool.not_true, Bool.false_and, Bool.and_false]
  | false =>
    have hfilled : (s.line s.width row).isBlank = false := by
      rw [← Bool.not_eq_true, isBlank_iff]
      intro hblank
      rw [isUndated, hblank dateColumn] at hdated
      cases hdated
    rw [hasRecord, hfilled]
    simp only [Bool.not_false, Bool.true_and, Bool.and_true]

/-- What a row of a schedule gives as a meeting. -/
def MakesMeeting (s : Sheet) (header row : Nat) (m : Meeting) : Prop :=
  ∃ r, (Spec.nested meetingFields).eval (s.recordAt header s.width row).value = .ok r ∧
    m = Meeting.ofRecord r

end Sheet

namespace Visit

variable {o : LoadOptions} {s : Sheet} {header dateColumn row : Nat} {v : Visit} {m : Meeting}

theorem Drafted.forall₂_meetings {roster rooms : Sheet} (h : Drafted o s roster rooms v)
    (hheader : o.meetingsHeader = header) (hdate : s.IsDateColumn header dateColumn) :
    List.Forall₂ (s.MakesMeeting header) (s.meetingRows header dateColumn) v.meetings := by
  obtain ⟨dated, records, hdated, hrecords, hmeetings⟩ := h.meetings
  rw [hheader, Sheet.records_eq,
    datedRows_map fun row _ => Sheet.isDated_recordAt hdate o.sheets.meetings row,
    Sheet.datedRecordRows] at hdated
  obtain rfl := Except.ok.inj hdated
  rw [hmeetings, List.forall₂_map_right_iff]
  refine (List.forall₂_map_left_iff.mp (mapRows_ok hrecords)).imp fun row r hr => ?_
  exact ⟨r, hr, rfl⟩

theorem zoomRoom_of_makesMeeting (h : s.MakesMeeting header row m) :
    ∃ column, s.IsOnlyColumn header zoomLink column ∧
      m.zoomRoom = Text.trim (s.cell row column).cellText := by
  obtain ⟨r, hr, rfl⟩ := h
  have hx := (Spec.maps_of_eval hr nodup_meetingFields).base "zoom_room_name"
    (.pattern zoomLink true) (by simp [meetingFields, zoomLink]) rfl (by decide)
  simp only [Spec.eval] at hx
  obtain ⟨column, honly, hx⟩ := (Sheet.selectPattern_recordAt seeksStart_zoomLink).mp hx
  exact ⟨column, honly, congrArg (fun x => x.text?.getD "") hx⟩

/-- The zoom rooms of the meetings are never guessed. If a row makes a meeting and two headers begin
like the header of the zoom rooms, the workbook is not loaded. If only one does, the zoom room of
every meeting is in this column, in the row of the meeting. -/
theorem load_zoomColumn {w : Workbook} (hschedule : w.sheet o.sheets.meetings = .ok s)
    (hheader : o.meetingsHeader = header) (hdate : s.IsColumn header "Date" dateColumn)
    (messages : List Message) :
    (∀ row, header < row → s.isHidden (row + 1) = false →
      Text.trim (s.cell row dateColumn).cellText ≠ "" →
      ∀ c d, c ≠ d → "Zoom Link".toList <+: (s.label header c).toList →
        "Zoom Link".toList <+: (s.label header d).toList →
          ∃ p, (load w o).outcome messages = (.error (.problem p), messages)) ∧
    ∀ column, (∀ d, "Zoom Link".toList <+: (s.label header d).toList ↔ d = column) →
      ∀ v after, (load w o).outcome messages = (.ok v, after) →
        List.Forall₂ (fun row m => s.MakesMeeting header row m ∧
            m.zoomRoom = Text.trim (s.cell row column).cellText)
          (s.meetingRows header dateColumn) v.meetings := by
  have hdated : s.IsDateColumn header dateColumn := hdate.plainName (by decide)
  have hmeetings {v : Visit} (h : read w o = .ok v) :
      List.Forall₂ (s.MakesMeeting header) (s.meetingRows header dateColumn) v.meetings := by
    obtain ⟨schedule, roster, rooms, hfound, -, -, hdrafted, -⟩ := sheets_of_read h
    obtain rfl := Except.ok.inj (hschedule.symm.trans hfound)
    exact hdrafted.forall₂_meetings hheader hdated
  simp only [← seeksStart_zoomLink.isIn_iff]
  constructor
  · intro row hrow hvisible hfilled c d hne hc hd
    have hmem : row ∈ s.meetingRows header dateColumn :=
      Sheet.mem_meetingRows.mpr ⟨hrow, hvisible, beq_eq_false_iff_ne.mpr hfilled⟩
    rw [load, Reporting.outcome_bind, Reporting.outcome_ofExcept]
    cases hread : read w o with
    | error f =>
      obtain ⟨p, rfl⟩ := mendable_read w o f hread
      exact ⟨p, rfl⟩
    | ok v =>
      obtain ⟨m, -, hm⟩ := exists_of_forall₂_left (hmeetings hread) hmem
      obtain ⟨column, honly, -⟩ := zoomRoom_of_makesMeeting hm
      exact absurd (((honly c).mp hc).trans ((honly d).mp hd).symm) hne
  · intro column honly v after hload
    refine (hmeetings (load_eq_ok hload)).imp fun row m hm => ⟨hm, ?_⟩
    obtain ⟨other, hother, hzoom⟩ := zoomRoom_of_makesMeeting hm
    rwa [← (honly other).mp ((hother other).mpr rfl)]

/-- The schedule of the tour with a second column for the zoom rooms. Its header looks as if it had
been made from the first one. -/
def twoLinks : Sheet where
  name := "Proposed Meetings-MSCHE Team"
  rows := [
    ["Date", "Time", "Meeting Location", "Zoom Room Option", "Zoom Link",
      "Interview Assignments", "Team Chair", "SI", "SII", "SIII", "SIV", "SV", "SVI", "SVII",
      "Individuals", "Hide Names", " Zoom Link_1"].map .text,
    ["Monday, June 2, 2025", "9:00-10:00 a.m.", "Hall", "Primary Room", "Red", "Opening", "x",
      "", "", "", "", "", "", "", "Bo Ek", "", "Blue"].map .text]

theorem load_zoomColumn_tours :
    (∃ p, (load (twoLinks :: tourBook.drop 1) {}).outcome [] = (.error (.problem p), [])) ∧
    ∃ s, tourBook.sheet "Proposed Meetings-MSCHE Team" = .ok s ∧
      List.Forall₂ (fun row m => s.MakesMeeting 0 row m ∧
        m.zoomRoom = Text.trim (s.cell row 4).cellText) [1] tourRead.meetings := by
  constructor
  · have hdate : twoLinks.IsColumn 0 "Date" 0 := ⟨by decide, nofun⟩
    obtain ⟨htwo, -⟩ := @load_zoomColumn {} twoLinks 0 0 (twoLinks :: tourBook.drop 1) rfl rfl hdate []
    exact htwo 1 (by decide) rfl (by decide) 4 16 (by decide) (by decide)
      (by decide)
  · obtain ⟨s, hs, hlabel, hrows, hzoom, hothers⟩ : ∃ s : Sheet,
        tourBook.sheet "Proposed Meetings-MSCHE Team" = .ok s ∧ s.label 0 0 = "Date" ∧
          s.meetingRows 0 0 = [1] ∧ "Zoom Link".toList <+: (s.label 0 4).toList ∧
          ∀ d < s.width, "Zoom Link".toList <+: (s.label 0 d).toList → d = 4 :=
      ⟨_, rfl, by decide, by decide, by decide, by decide⟩
    have honly (d : Nat) : "Zoom Link".toList <+: (s.label 0 d).toList ↔ d = 4 := by
      constructor
      · intro h
        have hfilled : s.label 0 d ≠ "" := by
          intro hblank
          rw [hblank] at h
          exact absurd h (by decide)
        exact hothers d (Sheet.lt_width_of_label hfilled) h
      · rintro rfl
        exact hzoom
    obtain ⟨after, hload⟩ := load_tourBook
    obtain ⟨-, hone⟩ := @load_zoomColumn {} s 0 0 tourBook hs rfl ⟨hlabel, nofun⟩ []
    have hmeetings := hone 4 honly tourRead after hload
    rw [hrows] at hmeetings
    exact ⟨s, hs, hmeetings⟩

end Visit
end SiteVisit
