import Mathlib.Data.List.DropRight
import Mathlib.Data.List.GetD
import SiteVisit.Workbook.Sheet

namespace SiteVisit

section Trailing

variable {α β : Type} {p : α → Bool} {d : α}

theorem getD_rdropWhile {f : α → β} (hf : ∀ a, p a → f a = f d) (as : List α) (i : Nat) :
    f ((as.rdropWhile p).getD i d) = f (as.getD i d) := by
  induction as using List.reverseRecOn with
  | nil => rfl
  | append_singleton as a ih =>
    by_cases ha : p a
    · rw [List.rdropWhile_concat_pos p as a ha, ih]
      rcases lt_trichotomy i as.length with hi | rfl | hi
      · rw [List.getD_append _ _ _ _ hi]
      · rw [List.getD_eq_default _ _ le_rfl, List.getD_append_right _ _ _ _ le_rfl, Nat.sub_self]
        exact (hf a ha).symm
      · have hlen : (as ++ [a]).length ≤ i := by
          rw [List.length_append]
          exact hi
        rw [List.getD_eq_default _ _ hi.le, List.getD_eq_default _ _ hlen]
    · rw [List.rdropWhile_concat_neg p as a ha]

theorem map_padded {f : α → β} {as : List α} {n : Nat} (h : as.length ≤ n) :
    (as ++ List.replicate (n - as.length) d).map f =
      (List.range n).map fun i => f (as.getD i d) := by
  refine List.ext_getElem (by simp; omega) fun i hi _ => ?_
  simp only [List.getElem_map, List.getElem_range]
  by_cases hlt : i < as.length
  · rw [List.getElem_append_left hlt, List.getD_eq_getElem _ _ hlt]
  · rw [List.getElem_append_right (not_lt.mp hlt), List.getElem_replicate,
      List.getD_eq_default _ _ (not_lt.mp hlt)]

end Trailing

namespace Datum

theorem cellText_of_isEmptyCell {v : Datum} (h : v.isEmptyCell) : v.cellText = "" := by
  cases v with
  | null => rfl
  | text s =>
    rw [isEmptyCell, String.isEmpty_iff] at h
    subst h
    rfl
  | _ => cases h

theorem cellMarkup?_of_isEmptyCell {v : Datum} (h : v.isEmptyCell) : v.cellMarkup? = none := by
  cases v with
  | rich parts => cases h
  | _ => rfl

end Datum

def Line.widened (l : Line) (more : Nat) : Line :=
  ⟨l.number, l.values ++ List.replicate more "", l.markup ++ List.replicate more none⟩

@[simp] theorem Line.widened_value (l : Line) (more column : Nat) :
    (l.widened more).value column = l.value column := by
  simp only [value, widened]
  rcases lt_or_ge column l.values.length with h | h
  · exact List.getD_append _ _ _ _ h
  · rw [List.getD_append_right _ _ _ _ h, List.getD_eq_default _ _ h]
    simp [List.getD_eq_getElem?_getD, List.getElem?_replicate]
    split <;> rfl

@[simp] theorem Line.widened_isBlank (l : Line) (more : Nat) :
    (l.widened more).isBlank = l.isBlank := by
  simp [isBlank, widened]

namespace Sheet

def cell (s : Sheet) (row column : Nat) : Datum := (s.rows.getD row []).getD column .null

def height (s : Sheet) : Nat := (usedRows s.rows).length

def line (s : Sheet) (width row : Nat) : Line :=
  ⟨row + 1, (List.range width).map fun column => (s.cell row column).cellText,
    (List.range width).map fun column => (s.cell row column).cellMarkup?⟩

@[simp] theorem line_number (s : Sheet) (width row : Nat) : (s.line width row).number = row + 1 :=
  rfl

theorem line_value (s : Sheet) {width row column : Nat} (h : column < width) :
    (s.line width row).value column = (s.cell row column).cellText := by
  simp [line, Line.value, h]

theorem line_isBlank {s : Sheet} {width row : Nat} :
    (s.line width row).isBlank ↔ ∀ column < width, (s.cell row column).cellText = "" := by
  simp [line, Line.isBlank]

theorem usedRows_cell {β : Type} {f : Datum → β} (hf : ∀ v : Datum, v.isEmptyCell → f v = f .null)
    (s : Sheet) (row column : Nat) :
    f (((usedRows s.rows).getD row []).getD column .null) = f (s.cell row column) := by
  have hrow : (s.rows.map usedCells).getD row [] = usedCells (s.rows.getD row []) :=
    List.getD_map s.rows [] usedCells
  calc
    f (((usedRows s.rows).getD row []).getD column .null) =
        f (((s.rows.map usedCells).getD row []).getD column .null) :=
      getD_rdropWhile (f := fun cells : List Datum => f (cells.getD column .null))
        (fun cells h => by rw [List.isEmpty_iff.mp h]) _ row
    _ = f (s.cell row column) := by
      rw [hrow]
      exact getD_rdropWhile hf _ column

theorem length_le_width {s : Sheet} {cells : List Datum} (h : cells ∈ usedRows s.rows) :
    cells.length ≤ s.width := by
  have hgo : ∀ (rows : List (List Datum)) (w : Nat),
      w ≤ rows.foldl (fun w row => max w row.length) w ∧
        ∀ row ∈ rows, row.length ≤ rows.foldl (fun w row => max w row.length) w := by
    intro rows
    induction rows with
    | nil => simp
    | cons row rows ih =>
      intro w
      obtain ⟨hw, hrows⟩ := ih (max w row.length)
      exact ⟨(le_max_left _ _).trans hw,
        List.forall_mem_cons.mpr ⟨(le_max_right _ _).trans hw, hrows⟩⟩
  exact (hgo _ 0).2 cells h

theorem cell_outside {β : Type} {f : Datum → β} (hf : ∀ v : Datum, v.isEmptyCell → f v = f .null)
    {s : Sheet} {row column : Nat} (h : s.height ≤ row ∨ s.width ≤ column) :
    f (s.cell row column) = f .null := by
  rw [← usedRows_cell hf]
  rcases lt_or_ge row s.height with hrow | hrow
  · have hcolumn := h.resolve_left (not_le.mpr hrow)
    rw [List.getD_eq_getElem _ _ hrow, List.getD_eq_default]
    exact (length_le_width (List.getElem_mem _)).trans hcolumn
  · rw [List.getD_eq_default _ _ hrow]
    rfl

theorem cellText_outside {s : Sheet} {row column : Nat} (h : s.height ≤ row ∨ s.width ≤ column) :
    (s.cell row column).cellText = "" :=
  cell_outside (fun _ hv => Datum.cellText_of_isEmptyCell hv) h

theorem cellMarkup?_outside {s : Sheet} {row column : Nat}
    (h : s.height ≤ row ∨ s.width ≤ column) : (s.cell row column).cellMarkup? = none :=
  cell_outside (fun _ hv => Datum.cellMarkup?_of_isEmptyCell hv) h

theorem isBlank_iff {s : Sheet} {row : Nat} :
    (s.line s.width row).isBlank ↔ ∀ column, (s.cell row column).cellText = "" := by
  rw [line_isBlank]
  refine ⟨fun h column => ?_, fun h column _ => h column⟩
  rcases lt_or_ge column s.width with hlt | hle
  · exact h column hlt
  · exact cellText_outside (.inr hle)

theorem allLines_eq (s : Sheet) : s.allLines = (List.range s.height).map (s.line s.width) := by
  refine List.ext_getElem (by simp [allLines, rectangle, height]) fun i hi hi' => ?_
  have hrow : i < (usedRows s.rows).length := by simpa [height] using hi'
  simp only [allLines, rectangle, line, List.getElem_map, List.getElem_zipIdx, List.getElem_range,
    Nat.zero_add, map_padded (length_le_width (List.getElem_mem hrow)), Line.mk.injEq, true_and]
  rw [← List.getD_eq_getElem _ [] hrow]
  exact ⟨List.map_congr_left fun column _ =>
      usedRows_cell (fun _ hv => Datum.cellText_of_isEmptyCell hv) s i column,
    List.map_congr_left fun column _ =>
      usedRows_cell (fun _ hv => Datum.cellMarkup?_of_isEmptyCell hv) s i column⟩

theorem line_widened (s : Sheet) (more row : Nat) :
    s.line (s.width + more) row = (s.line s.width row).widened more := by
  have hblank (i : Nat) : s.height ≤ row ∨ s.width ≤ s.width + i := .inr (Nat.le_add_right _ _)
  simp only [line, Line.widened, List.range_add, List.map_append, List.map_map, Function.comp_def,
    cellText_outside (hblank _), cellMarkup?_outside (hblank _), List.map_const', List.length_range]

theorem lineAt?_allLines (s : Sheet) (row : Nat) :
    lineAt? s.allLines row = if row < s.height then some (s.line s.width row) else none := by
  have hnumber : ∀ i : Nat, (((s.line s.width i).number : Int) == (row : Int) + 1) = (i == row) := by
    intro i
    rw [line_number, Bool.eq_iff_iff, beq_iff_eq, beq_iff_eq]
    omega
  rw [lineAt?, allLines_eq, List.find?_map]
  simp only [Function.comp_def, hnumber]
  split
  · next h =>
    have hfind : (List.range s.height).find? (· == row) = some row := by
      rw [List.find?_eq_some_iff_getElem]
      exact ⟨by simp, row, by simpa using h, by simp, fun j hj => by simp; omega⟩
    rw [hfind, Option.map_some]
  · next h =>
    have hfind : (List.range s.height).find? (· == row) = none := by
      simp only [List.find?_eq_none, List.mem_range, beq_iff_eq]
      omega
    rw [hfind, Option.map_none]

theorem exists_of_lineAt? {s : Sheet} {position : Int} {l : Line}
    (h : lineAt? s.allLines position = some l) :
    ∃ row : Nat, position = row ∧ row < s.height ∧ l = s.line s.width row := by
  have hmem := List.mem_of_find?_eq_some h
  have hposition := List.find?_some h
  rw [allLines_eq, List.mem_map] at hmem
  obtain ⟨row, hrow, rfl⟩ := hmem
  refine ⟨row, ?_, List.mem_range.mp hrow, rfl⟩
  rw [beq_iff_eq, line_number] at hposition
  omega

end Sheet
end SiteVisit
