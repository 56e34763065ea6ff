import SiteVisit.Proofs.Mapping.Kept
import SiteVisit.Proofs.Visit.Integrity
import SiteVisit.Proofs.Workbook.Columns

/-!
The columns that a visit is read from. A sheet whose columns stand in another sheet, wherever they
stand there and whatever stands beside them, has records that give the same in that sheet.
-/

namespace SiteVisit

namespace Spec

mutual

def asked : Spec → List String
  | .column name _ => [name]
  | .header name => [name]
  | .pipeline s _ => asked s
  | .steps (s :: _) => asked s
  | .nested fields => askedFields fields
  | .table fields => askedFields fields
  | .splice s => asked s
  | _ => []

def askedFields : List (String × Spec) → List String
  | [] => []
  | (_, s) :: rest => asked s ++ askedFields rest

end

end Spec

def knownHeaders : List String :=
  (Spec.nested (participantFields true)).asked ++ (Spec.nested meetingFields).asked ++
    (Spec.nested zoomRoomFields).asked

theorem isPlainName_of_known : ∀ name ∈ knownHeaders, Sheet.IsPlainName name := by decide

theorem label_known (r : Role) : r.label ∈ knownHeaders := by
  cases r <;> decide

def zoomLink : Text.Pattern := { source := "^Zoom Link" }

theorem seeksStart_zoomLink : zoomLink.SeeksStart "Zoom Link".toList :=
  Text.Pattern.seeksStart_of_atoms rfl rfl (by decide) (by decide)

structure Datum.Keeps (v w : Datum) : Prop where
  named : ∀ name ∈ knownHeaders, (Spec.cell name).Carries v w
  roles : (Spec.column teamRolesColumn false).Carries v w
  markup : (Spec.rowFunction (Transform.markupOf teamRolesColumn)).Carries v w
  zoom : (Spec.pattern zoomLink true).Carries v w

namespace Datum.Keeps

variable {v w : Datum}

theorem refl (v : Datum) : v.Keeps v :=
  ⟨fun _ _ => .refl _ v, .refl _ v, .refl _ v, .refl _ v⟩

theorem cellThen (h : v.Keeps w) {name : String} (hname : name ∈ knownHeaders) (f : Transform) :
    (Spec.cellThen name f).Carries v w :=
  .pipeline (h.named name hname) _

theorem participantFields (h : v.Keeps w) (fromColumn : Bool) :
    ∀ field ∈ participantFields fromColumn, field.2.isDerived = false →
      field.2.body.Carries v w := by
  simp only [SiteVisit.participantFields, List.forall_mem_cons]
  refine ⟨fun _ => h.named _ (by decide), fun _ => h.named _ (by decide),
    fun _ => h.named _ (by decide), fun _ => h.named _ (by decide),
    fun _ => h.cellThen (by decide) _, fun _ => h.cellThen (by decide) _,
    fun _ => h.named _ (by decide), .derived, .derived, ?_, List.forall_mem_nil _⟩
  cases fromColumn with
  | true => exact fun _ => h.cellThen (by decide) _
  | false =>
    intro _ r hr
    simpa only [Bool.false_eq_true, if_false, Spec.body, Spec.eval] using hr

theorem participant (h : v.Keeps w) (fromColumn : Bool) :
    (Spec.nested (SiteVisit.participantFields fromColumn)).Carries v w :=
  .nested (h.participantFields fromColumn)

theorem meeting (h : v.Keeps w) : (Spec.nested meetingFields).Carries v w := by
  apply Spec.Carries.nested
  simp only [meetingFields, List.cons_append, List.nil_append, List.forall_mem_cons,
    List.forall_mem_append, List.forall_mem_map]
  exact ⟨fun _ => h.named _ (by decide), fun _ => h.cellThen (by decide) _,
    fun _ => h.cellThen (by decide) _, fun _ => h.named _ (by decide),
    fun _ => h.cellThen (by decide) _, .derived, .derived, fun _ => h.zoom,
    fun _ => h.named _ (by decide),
    ⟨fun r _ _ => h.cellThen (label_known r) _, fun _ => h.cellThen (by decide) _,
      fun _ => h.cellThen (by decide) _, fun _ => h.roles, fun _ => h.markup,
      List.forall_mem_nil _⟩⟩

theorem zoomRoom (h : v.Keeps w) : (Spec.nested zoomRoomFields).Carries v w := by
  apply Spec.Carries.nested
  simp only [zoomRoomFields, List.forall_mem_cons]
  exact ⟨fun _ => h.named _ (by decide), fun _ => h.named _ (by decide), List.forall_mem_nil _⟩

end Datum.Keeps

/-- Rows that give, one by one, what other rows give. -/
def KeepsRows (rows rows' : List NumberedRow) : Prop :=
  List.Forall₂ (fun row row' => row.value.Keeps row'.value) rows rows'

namespace KeepsRows

variable {rows rows' : List NumberedRow} {sheet : String}

theorem refl (rows : List NumberedRow) : KeepsRows rows rows :=
  List.forall₂_same.mpr fun row _ => .refl row.value

theorem isDated {row row' : NumberedRow} (h : row.value.Keeps row'.value) {dated : Bool}
    (hrow : isDated sheet row = .ok dated) : SiteVisit.isDated sheet row' = .ok dated := by
  simp only [SiteVisit.isDated, bind_eq_ok, locating_eq_ok] at hrow ⊢
  obtain ⟨date, hdate, hrow⟩ := hrow
  have hcell := h.named "Date" (by decide) date
  rw [Spec.eval_cell, Spec.eval_cell] at hcell
  exact ⟨date, hcell hdate, hrow⟩

theorem datedRows (h : KeepsRows rows rows') {dated : List NumberedRow}
    (hdated : datedRows sheet rows = .ok dated) :
    ∃ dated', SiteVisit.datedRows sheet rows' = .ok dated' ∧ KeepsRows dated dated' := by
  induction h generalizing dated with
  | nil =>
    cases hdated
    exact ⟨[], rfl, .nil⟩
  | @cons row row' _ _ hrow _ ih =>
    simp only [SiteVisit.datedRows, bind_eq_ok, pure_eq_ok, Except.ok.injEq] at hdated ⊢
    obtain ⟨isIn, hin, others, hothers, rfl⟩ := hdated
    obtain ⟨others', hothers', hkept⟩ := ih hothers
    refine ⟨_, ⟨isIn, isDated hrow hin, others', hothers', rfl⟩, ?_⟩
    cases isIn with
    | true => exact .cons hrow hkept
    | false => exact hkept

theorem mapRows (h : KeepsRows rows rows') {spec : Spec} (hcheck : spec.check = .ok ())
    (hspec : ∀ {v w : Datum}, v.Keeps w → spec.Carries v w) {records : List Datum}
    (hrecords : mapRows spec (some sheet) rows = .ok records) :
    SiteVisit.mapRows spec (some sheet) rows' = .ok records :=
  mapRows_carries hcheck (List.Forall₂.imp (fun _ _ => hspec) h) hrecords

end KeepsRows

namespace Sheet

/-- The columns of a sheet stand in another one, with their headers and with the cells below. The
columns beside them are blank where the rows are. -/
structure Includes (header : Nat) (place : Nat → Nat) (s t : Sheet) : Prop where
  hidden : s.hidden = t.hidden
  injective : Function.Injective place
  cell : ∀ row column, header ≤ row → t.cell row (place column) = s.cell row column
  blank : ∀ row, header < row → s.isHidden (row + 1) = false →
    (∀ column, (s.cell row column).cellText = "") →
    ∀ d, (∀ column, place column ≠ d) → (t.cell row d).cellText = ""

theorem Includes.label {header : Nat} {place : Nat → Nat} {s t : Sheet}
    (h : s.Includes header place t) (column : Nat) :
    t.label header (place column) = s.label header column := by
  rw [Sheet.label, Sheet.label, h.cell header column le_rfl]

structure StandsIn (header : Nat) (place : Nat → Nat) (s t : Sheet) : Prop
    extends s.Includes header place t where
  found : ∀ name ∈ knownHeaders, ∀ column, s.IsColumn header name column →
    t.IsColumn header name (place column)
  further : ∀ d, (∀ column, place column ≠ d) →
    t.label header d ≠ teamRolesColumn ∧ ¬ zoomLink.isIn (t.label header d)

namespace StandsIn

variable {header row column : Nat} {place : Nat → Nat} {s t : Sheet}

theorem label_ne_roles (h : s.StandsIn header place t)
    (hnone : ∀ column, s.label header column ≠ teamRolesColumn) (d : Nat) :
    t.label header d ≠ teamRolesColumn := by
  by_cases hd : ∃ c, place c = d
  · obtain ⟨c, rfl⟩ := hd
    rw [h.label]
    exact hnone c
  · exact (h.further d (not_exists.mp hd)).1

theorem isOnlyColumn (h : s.StandsIn header place t)
    (honly : s.IsOnlyColumn header zoomLink column) :
    t.IsOnlyColumn header zoomLink (place column) := by
  intro d
  by_cases hd : ∃ c, place c = d
  · obtain ⟨c, rfl⟩ := hd
    rw [h.label, honly c, h.injective.eq_iff]
  · refine iff_of_false (h.further d (not_exists.mp hd)).2 ?_
    rintro rfl
    exact hd ⟨column, rfl⟩

theorem recordRows (h : s.StandsIn header place t) : s.recordRows header = t.recordRows header := by
  refine recordRows_congr h.hidden fun row hrow hvisible => ⟨fun hblank d => ?_,
    fun hblank column => ?_⟩
  · by_cases hd : ∃ c, place c = d
    · obtain ⟨c, rfl⟩ := hd
      rw [h.cell row c hrow.le]
      exact hblank c
    · exact h.blank row hrow hvisible hblank d (not_exists.mp hd)
  · rw [← h.cell row column hrow.le]
    exact hblank _

section Records

variable (h : s.StandsIn header place t) (hrow : header ≤ row)

include h hrow

theorem selectHeader {required : Bool} {name : String} (hname : name ∈ knownHeaders)
    (hcolumn : s.IsColumn header name column) :
    selectHeader required name (t.recordAt header t.width row).value =
      selectHeader required name (s.recordAt header s.width row).value := by
  have hplain := isPlainName_of_known name hname
  rw [selectHeader_recordAt hcolumn hplain,
    selectHeader_recordAt (h.found name hname column hcolumn) hplain, h.cell row column hrow]

theorem keeps :
    (s.recordAt header s.width row).value.Keeps (t.recordAt header t.width row).value where
  named name hname r hr := by
    rw [Spec.eval_cell] at hr ⊢
    by_cases hcolumn : ∃ column, s.label header column = name
    · obtain ⟨column, hcolumn⟩ := exists_isColumn hcolumn
      rwa [h.selectHeader hrow hname hcolumn]
    · rw [selectHeader_recordAt_none (not_exists.mp hcolumn)
        (isPlainName_of_known name hname).2] at hr
      cases hr
  roles r hr := by
    have hplain : IsPlainName teamRolesColumn := by decide
    simp only [Spec.eval] at hr ⊢
    by_cases hcolumn : ∃ column, s.label header column = teamRolesColumn
    · obtain ⟨column, hcolumn⟩ := exists_isColumn hcolumn
      rwa [h.selectHeader hrow (by decide) hcolumn]
    · have hnone := not_exists.mp hcolumn
      rw [selectHeader_recordAt_none hnone hplain.2] at hr
      rwa [selectHeader_recordAt_none (h.label_ne_roles hnone) hplain.2]
  markup r hr := by
    have hplain : IsPlainName teamRolesColumn := by decide
    simp only [Spec.eval] at hr ⊢
    by_cases hcolumn : ∃ column, s.label header column = teamRolesColumn
    · obtain ⟨column, hcolumn⟩ := exists_isColumn hcolumn
      rw [markupOf_recordAt hcolumn hplain, ← h.cell row column hrow] at hr
      rwa [markupOf_recordAt (h.found _ (by decide) column hcolumn) hplain]
    · have hnone := not_exists.mp hcolumn
      rw [markupOf_recordAt_none hnone hplain.2] at hr
      rwa [markupOf_recordAt_none (h.label_ne_roles hnone) hplain.2]
  zoom r hr := by
    simp only [Spec.eval] at hr ⊢
    obtain ⟨column, honly, rfl⟩ := (selectPattern_recordAt seeksStart_zoomLink).mp hr
    refine (selectPattern_recordAt seeksStart_zoomLink).mpr ⟨_, h.isOnlyColumn honly, ?_⟩
    rw [h.cell row column hrow]

end Records

theorem keepsRows (h : s.StandsIn header place t) :
    KeepsRows (s.records header) (t.records header) := by
  rw [records_eq, records_eq, ← h.recordRows]
  refine List.forall₂_map_left_iff.mpr (List.forall₂_map_right_iff.mpr ?_)
  refine List.forall₂_same.mpr fun row hrow => h.keeps ?_
  exact (hasRecord_iff.mp (List.mem_filter.mp hrow).2).1.le

end StandsIn

theorem records_of_neg {position : Int} (h : position < 0) (s : Sheet) :
    s.records position = [] := records_of_outside fun row _ => by omega

theorem keepsRows_of_headers {s t : Sheet} {position : Int}
    (h : ∀ header : Nat, position = header → KeepsRows (s.records header) (t.records header)) :
    KeepsRows (s.records position) (t.records position) := by
  by_cases hneg : position < 0
  · rw [records_of_neg hneg, records_of_neg hneg]
    exact .refl []
  · obtain ⟨header, rfl⟩ := Int.eq_ofNat_of_zero_le (Int.not_lt.mp hneg)
    exact h header rfl

end Sheet

namespace Visit

variable {o : LoadOptions} {v : Visit}

theorem Drafted.meetings_of_keeps {schedule roster rooms : Sheet}
    (h : Drafted o schedule roster rooms v) {rows : List NumberedRow}
    (hrows : KeepsRows (schedule.records o.meetingsHeader) rows) :
    ∃ dated records, datedRows o.sheets.meetings rows = .ok dated ∧
      mapRows (.nested meetingFields) (some o.sheets.meetings) dated = .ok records ∧
      v.meetings = records.map Meeting.ofRecord := by
  obtain ⟨dated, records, hdated, hrecords, hmeetings⟩ := h.meetings
  obtain ⟨dated', hdated', hkept⟩ := hrows.datedRows hdated
  exact ⟨dated', records, hdated', hkept.mapRows rfl Datum.Keeps.meeting hrecords, hmeetings⟩

theorem Drafted.zoomRooms_of_keeps {schedule roster rooms : Sheet}
    (h : Drafted o schedule roster rooms v) {rows : List NumberedRow}
    (hrows : KeepsRows (rooms.records 0) rows) :
    ∃ records, mapRows (.nested zoomRoomFields) (some o.sheets.zoomRooms) rows = .ok records ∧
      v.zoomRooms = records.map ZoomRoom.ofRecord := by
  obtain ⟨records, hrecords, hzoomRooms⟩ := h.zoomRooms
  exact ⟨records, hrows.mapRows rfl Datum.Keeps.zoomRoom hrecords, hzoomRooms⟩

theorem load_congr {w w' : Workbook} {o' : LoadOptions} (h : read w o = .ok v)
    (h' : read w' o' = .ok v) (messages : List Message) :
    (load w' o').outcome messages = (load w o).outcome messages := by
  rw [load, load, h, h']

end Visit
end SiteVisit
