import SiteVisit.Proofs.Workbook.Columns

namespace SiteVisit

theorem Markup.writeRuns_eq_empty {runs : List TextRun} : writeRuns runs = "" ↔ runs = [] := by
  cases runs with
  | nil => simp [writeRuns]
  | cons run rest => simp [writeRuns, TextRun.write, ← String.toList_inj]

namespace Datum

theorem filter_cellMarkup?_eq_some {cell : Datum} {m : String} :
    cell.cellMarkup?.filter (!·.isEmpty) = some m ↔
      ∃ runs, cell = .rich runs ∧ runs ≠ [] ∧ m = Markup.writeRuns runs := by
  cases cell with
  | rich runs =>
    simp only [cellMarkup?, Option.filter_eq_some_iff, Option.some.injEq, Bool.not_eq_true',
      ← Bool.not_eq_true, String.isEmpty_iff, rich.injEq]
    constructor
    · rintro ⟨rfl, hm⟩
      exact ⟨runs, rfl, fun hruns => hm (Markup.writeRuns_eq_empty.mpr hruns), rfl⟩
    · rintro ⟨_, rfl, hruns, rfl⟩
      exact ⟨rfl, fun hm => hruns (Markup.writeRuns_eq_empty.mp hm)⟩
  | _ => simp [cellMarkup?]

end Datum

namespace Sheet

variable {s : Sheet} {header row column : Nat} {position : Int}

theorem mem_recordRows : row ∈ s.recordRows header ↔
    header < row ∧ s.isHidden (row + 1) = false ∧ ∃ column, (s.cell row column).cellText ≠ "" := by
  rw [recordRows, List.mem_filter, List.mem_range, hasRecord_iff, ← Bool.not_eq_true, isBlank_iff,
    not_forall]
  constructor
  · rintro ⟨-, hbelow, hfilled, hvisible⟩
    exact ⟨hbelow, hvisible, hfilled⟩
  · rintro ⟨hbelow, hvisible, column, hfilled⟩
    refine ⟨?_, hbelow, ⟨column, hfilled⟩, hvisible⟩
    by_contra houtside
    exact hfilled (cellText_outside (.inl (not_lt.mp houtside)))

theorem pairwise_recordRows (s : Sheet) (header : Nat) :
    (s.recordRows header).Pairwise (· < ·) :=
  List.pairwise_lt_range.filter _

theorem numbers_recordRows (s : Sheet) (header : Nat) :
    (s.recordRows header).map (· + 1) =
      ((s.lines true).filter fun l => header + 1 < l.number && !l.isBlank).map (·.number) := by
  have hline : ((fun l : Line => header + 1 < l.number && !l.isBlank &&
      !(true && s.isHidden l.number)) ∘ s.line s.width) = s.hasRecord header s.width := by
    funext row
    simp only [Function.comp_apply, line_number, Nat.add_lt_add_iff_right, Bool.true_and, hasRecord]
  rw [lines, allLines_eq, List.filter_filter, List.filter_map, hline, List.map_map]
  rfl

/-- A record that tells of a row and no other. Under the headers, if they all differ, it has the
texts of the row, and it has the markup of those cells that are formatted. -/
structure Transcribes (s : Sheet) (header row : Nat) (r : NumberedRow) : Prop where
  number : r.number = some (row + 1 : Nat)
  value : (s.columnNames header).Nodup → ∃ markup,
    r.value = .record ((s.columnNames header).zipIdx.map fun (name, i) =>
      (name, .text (s.cell row i).cellText)) markup ∧
    (markup.map (·.1)).Nodup ∧
    ∀ name m, (name, m) ∈ markup ↔ ∃ i runs, (s.columnNames header)[i]? = some name ∧
      s.cell row i = .rich runs ∧ runs ≠ [] ∧ m = Markup.writeRuns runs

theorem texts_eq (hn : (s.columnNames header).Nodup) (row : Nat) :
    s.texts header row = (s.columnNames header).zipIdx.map fun (name, i) =>
      (name, .text (s.cell row i).cellText) := by
  have hnames : (((s.columnNames header).zipIdx.map fun (name, i) =>
      (name, Datum.text ((s.line s.width row).value i))).map (·.1)) = s.columnNames header := by
    rw [List.map_map]
    exact List.zipIdx_map_fst 0 _
  rw [texts, fieldsOf_of_nodup (by rwa [hnames])]
  refine List.map_congr_left fun field hmem => ?_
  obtain ⟨name, i⟩ := field
  have hlt : i < s.width := lt_width_of_columnNames (List.mem_zipIdx_iff_getElem?.mp hmem)
  simp only [line_value s hlt]

theorem nodup_markups : ((s.markups header row).map (·.1)).Nodup := nodup_fieldsOf _

theorem mem_markups (hn : (s.columnNames header).Nodup) {name m : String} :
    (name, m) ∈ s.markups header row ↔ ∃ i runs, (s.columnNames header)[i]? = some name ∧
      s.cell row i = .rich runs ∧ runs ≠ [] ∧ m = Markup.writeRuns runs := by
  have hmarkup {i : Nat} (hi : (s.columnNames header)[i]? = some name) :
      (name, m) ∈ s.markups header row ↔
        ∃ runs, s.cell row i = .rich runs ∧ runs ≠ [] ∧ m = Markup.writeRuns runs := by
    have hone (j : Nat) (hj : (s.columnNames header)[j]? = some name) : j = i :=
      (List.getElem?_inj (List.getElem?_eq_some_iff.mp hj).1 hn).mp (hj.trans hi.symm)
    rw [← field?_eq_some nodup_markups, field?_markups_of_unique hi hone,
      Datum.filter_cellMarkup?_eq_some]
  constructor
  · intro h
    obtain ⟨⟨key, markup⟩, hpair, heq⟩ := List.mem_filterMap.mp (mem_of_mem_fieldsOf h)
    obtain ⟨text, -, heq⟩ := Option.map_eq_some_iff.mp heq
    cases heq
    obtain ⟨i, hi⟩ := List.mem_iff_getElem?.mp (List.of_mem_zip hpair).1
    obtain ⟨runs, hruns⟩ := (hmarkup hi).mp h
    exact ⟨i, runs, hi, hruns⟩
  · rintro ⟨i, runs, hi, hruns⟩
    exact (hmarkup hi).mpr ⟨runs, hruns⟩

theorem transcribes_recordAt (s : Sheet) (header row : Nat) :
    s.Transcribes header row (s.recordAt header s.width row) where
  number := rfl
  value hn := ⟨s.markups header row, by rw [recordAt_value, texts_eq hn], nodup_markups,
    fun _ _ => mem_markups hn⟩

/-- The rows of a sheet become records without loss. A sheet has no records under headers that are
not in it. Otherwise there is one record for each visible row below the headers that shows
something, in the order of the rows, be the headers hidden or not. -/
theorem records_transcribed (s : Sheet) :
    (∀ position : Int, (∀ row : Nat, row < s.height → position ≠ row) → s.records position = []) ∧
    ∀ header : Nat,
      (s.recordRows header).Pairwise (· < ·) ∧
      (∀ row, row ∈ s.recordRows header ↔ header < row ∧ s.isHidden (row + 1) = false ∧
        ∃ column, (s.cell row column).cellText ≠ "") ∧
      (s.recordRows header).map (· + 1) =
        ((s.lines true).filter fun l => header + 1 < l.number && !l.isBlank).map (·.number) ∧
      List.Forall₂ (s.Transcribes header) (s.recordRows header) (s.records header) := by
  refine ⟨fun _ => records_of_outside, fun header => ⟨s.pairwise_recordRows header,
    fun _ => mem_recordRows, s.numbers_recordRows header, ?_⟩⟩
  rw [records_eq, List.forall₂_map_right_iff]
  exact List.forall₂_same.mpr fun row _ => s.transcribes_recordAt header row

def guestSheet : Sheet where
  name := "Guests"
  rows := [
    [.text "Visit"],
    [.text "Name", .text "", .text "Notes"],
    [.text "Ann", .null, .rich [⟨"Chair", { bold := true }⟩]],
    [.text "Bo", .null, .rich []],
    [.text " ", .null, .rich []],
    [.null, .int 5]]
  hidden := [2, 4]

theorem records_transcribed_guests :
    guestSheet.records 6 = [] ∧ guestSheet.recordRows 1 = [2, 5] ∧
      (guestSheet.columnNames 1).Nodup ∧
      List.Forall₂ (guestSheet.Transcribes 1) [2, 5] (guestSheet.records 1) := by
  obtain ⟨houtside, hrecords⟩ := records_transcribed guestSheet
  obtain ⟨-, -, -, hall⟩ := hrecords 1
  have hheight : guestSheet.height = 6 := by decide
  have hrows : guestSheet.recordRows 1 = [2, 5] := by decide
  refine ⟨houtside 6 fun row hrow => ?_, hrows, by decide, hrows ▸ hall⟩
  omega

end Sheet
end SiteVisit
