import SiteVisit.Proofs.Calendar.Labels
import SiteVisit.Workbook.Sheet

namespace SiteVisit

open Text (OnlyOf IsPlain)

variable {Q : Char → Prop}

theorem Datum.cellText_onlyOf (hplain : ∀ c, IsPlain c → Q c) {v : Datum} (h : OnlyOf Q v.shown) :
    OnlyOf Q v.cellText := by
  cases v with
  | null => exact .empty
  | wall w => exact w.date.label_plain.mono hplain
  | date d => exact d.label_plain.mono hplain
  | clock t second => exact t.label_plain.mono hplain
  | float x =>
    rw [cellText]
    split
    · exact (Text.signedDecimal_plain _).mono hplain
    · exact h
  | _ => exact h.trim

theorem Sheet.mem_rectangle {s : Sheet} {row : List Datum} (hrow : row ∈ s.rectangle) {v : Datum}
    (hv : v ∈ row) : v = .null ∨ ∃ cells ∈ s.rows, v ∈ cells := by
  obtain ⟨used, hused, rfl⟩ := List.mem_map.mp hrow
  rcases List.mem_append.mp hv with hv | hv
  · have hmem : used ∈ s.rows.map usedCells :=
      List.mem_reverse.mp ((List.dropWhile_suffix _).subset (List.mem_reverse.mp hused))
    obtain ⟨cells, hcells, rfl⟩ := List.mem_map.mp hmem
    refine .inr ⟨cells, hcells, ?_⟩
    exact List.mem_reverse.mp ((List.dropWhile_suffix _).subset (List.mem_reverse.mp hv))
  · exact .inl (List.eq_of_mem_replicate hv)

theorem Sheet.lines_onlyOf (hplain : ∀ c, IsPlain c → Q c) {s : Sheet}
    (h : ∀ row ∈ s.rows, ∀ v ∈ row, OnlyOf Q v.shown) :
    ∀ l ∈ s.allLines, ∀ text ∈ l.values, OnlyOf Q text := by
  intro l hl text htext
  obtain ⟨⟨row, i⟩, hrow, rfl⟩ := List.mem_map.mp hl
  obtain ⟨v, hv, rfl⟩ := List.mem_map.mp htext
  have hrow : row ∈ s.rectangle := List.mem_of_getElem? (List.mem_zipIdx_iff_getElem?.mp hrow)
  rcases mem_rectangle hrow hv with rfl | ⟨cells, hcells, hv⟩
  · exact .empty
  · exact Datum.cellText_onlyOf hplain (h cells hcells v hv)

end SiteVisit
