import SiteVisit.Proofs.Calendar.DayLabels
import SiteVisit.Proofs.Visit.ZoomColumn

namespace SiteVisit

open Calendar (Date)
open Calendar.DateLabel (IsLabelOf IsSpelling isLabelOf_label parse)

inductive Datum.IsDay (d : Date) : Datum → Prop
  | date : IsDay d (.date d)
  | wall {w : Calendar.Wall} (h : w.date = d) : IsDay d (.wall w)

namespace Visit

variable {s : Sheet} {header dateColumn row : Nat} {m : Meeting} {d : Date} {cell : Datum}

theorem isLabelOf_cellText (h : cell.IsDay d) : IsLabelOf d cell.cellText := by
  cases h with
  | date => exact isLabelOf_label d
  | wall h =>
    subst h
    exact isLabelOf_label _

theorem dateAt?_of_date {r x : Datum} {key : String} (h : Transform.date x = .ok (r.fieldAt key)) :
    r.dateAt? key = parse x.words := by
  simp only [Transform.date, Except.ok.injEq] at h
  rw [Datum.dateAt?, ← h]
  cases parse x.words <;> rfl

theorem day_of_makesMeeting (hdate : s.IsColumn header "Date" dateColumn)
    (h : s.MakesMeeting header row m) :
    m.day = parse (Text.trim (s.cell row dateColumn).cellText) := by
  obtain ⟨r, hr, rfl⟩ := h
  have hx := (Spec.maps_of_eval hr nodup_meetingFields).base "parsed_date"
    (.cellThen "Date" Transform.date) (by simp [meetingFields]) rfl (by decide)
  rw [Spec.eval_cellThen, Sheet.selectHeader_recordAt hdate (by decide), ok_bind] at hx
  exact (dateAt?_of_date hx).trans (by rw [Datum.words_text])

/-- The labels of a day are read as this day and no other. So a cell with a date keeps it, read from
the text that it shows, and the meetings of a workbook are on the days of the date column. -/
theorem labels_roundTrip (d : Date) (hyear : 1000 ≤ d.year) :
    (∀ text, IsLabelOf d text → parse text = some d) ∧
    (∀ cell : Datum, cell.IsDay d → parse cell.cellText = some d) ∧
    ∀ (w : Workbook) (o : LoadOptions) (v : Visit) (messages after : List Message) (s : Sheet)
      (header dateColumn : Nat), (load w o).outcome messages = (.ok v, after) →
        w.sheet o.sheets.meetings = .ok s → o.meetingsHeader = header →
        s.IsColumn header "Date" dateColumn →
        List.Forall₂ (fun row m => s.MakesMeeting header row m ∧
            ((s.cell row dateColumn).IsDay d ∨ IsLabelOf d (s.cell row dateColumn).cellText →
              m.day = some d))
          (s.meetingRows header dateColumn) v.meetings := by
  have hparse (text : String) (h : IsLabelOf d text) := h.parse hyear
  refine ⟨hparse, fun cell hcell => hparse _ (isLabelOf_cellText hcell), ?_⟩
  intro w o v messages after s header dateColumn hload hs hheader hdate
  obtain ⟨schedule, roster, rooms, hfound, -, -, hdrafted, -⟩ := sheets_of_read (load_eq_ok hload)
  obtain rfl := Except.ok.inj (hs.symm.trans hfound)
  refine (hdrafted.forall₂_meetings hheader (hdate.plainName (by decide))).imp fun row m hm =>
    ⟨hm, fun hcell => ?_⟩
  have hlabel : IsLabelOf d (s.cell row dateColumn).cellText := hcell.elim isLabelOf_cellText id
  rw [day_of_makesMeeting hdate hm]
  refine hparse _ (hlabel.of_words ?_)
  rw [Text.trim, String.toList_ofList, Text.words_trimChars]

theorem labels_roundTrip_june : ∃ d : Date, Date.ofParts? 2025 6 2 = some d ∧ 1000 ≤ d.year ∧
    parse " monday,\u00a0JUNE \t02nd, 2025\n" = some d ∧
    parse (Datum.date d).cellText = some d ∧
    ∃ s, tourBook.sheet "Proposed Meetings-MSCHE Team" = .ok s ∧
      List.Forall₂ (fun row m => s.MakesMeeting 0 row m ∧ m.day = some d) [1]
        tourRead.meetings := by
  obtain ⟨d, hd, hweekday, hmonth, hday, hyear, hcell⟩ : ∃ d : Date,
      Date.ofParts? 2025 6 2 = some d ∧ d.weekdayName = "Monday" ∧ d.monthName = "June" ∧
        d.day = 2 ∧ d.year = 2025 ∧ d.label = "Monday, June 2, 2025" :=
    ⟨_, rfl, by decide, rfl, rfl, rfl, by decide⟩
  have hlong : 1000 ≤ d.year := by omega
  obtain ⟨hlabels, hcells, hloaded⟩ := labels_roundTrip d hlong
  refine ⟨d, hd, hlong, hlabels _ ?_, hcells _ .date, ?_⟩
  · refine ⟨_, List.mem_cons_self, "nd".toList, ["monday".toList, [','], [' '], "JUNE".toList,
      [' '], "02nd".toList, [','], [' '], "2025".toList], by decide, ?_, by decide⟩
    refine .cons ?_ (.cons rfl (.cons rfl (.cons ?_ (.cons rfl (.cons ?_ (.cons rfl (.cons rfl
      (.cons ?_ .nil))))))))
    · show IsSpelling d.weekdayName.toList "monday".toList
      rw [hweekday]
      decide
    · show IsSpelling d.monthName.toList "JUNE".toList
      rw [hmonth]
      decide
    · exact ⟨"02".toList, .inr (by rw [hday]; decide), rfl⟩
    · show "2025".toList = (Text.decimal d.year).toList
      rw [hyear]
      decide
  · obtain ⟨s, hs, hlabel, hrows, htext⟩ : ∃ s : Sheet,
        tourBook.sheet "Proposed Meetings-MSCHE Team" = .ok s ∧ s.label 0 0 = "Date" ∧
          s.meetingRows 0 0 = [1] ∧ (s.cell 1 0).cellText = "Monday, June 2, 2025" :=
      ⟨_, rfl, by decide, by decide, by decide⟩
    obtain ⟨after, hload⟩ := load_tourBook
    have hmeetings := hloaded tourBook {} tourRead [] after s 0 0 hload hs rfl ⟨hlabel, nofun⟩
    rw [hrows] at hmeetings
    obtain ⟨m, rest, ⟨hm, hkept⟩, hrest, heq⟩ := List.forall₂_cons_left_iff.mp hmeetings
    obtain rfl := List.forall₂_nil_left_iff.mp hrest
    refine ⟨s, hs, heq ▸ .cons ⟨hm, hkept (.inr ?_)⟩ .nil⟩
    rw [htext, ← hcell]
    exact isLabelOf_label d

end Visit
end SiteVisit
