import SiteVisit.Proofs.Mapping.Nested
import SiteVisit.Proofs.Text.Blank
import SiteVisit.Workbook.Records

namespace SiteVisit

@[simp] theorem Datum.words_text (s : String) : (text s).words = s := by
  by_cases hs : s = ""
  · subst hs
    rfl
  · simp [words, isVoid, shown, hs]

def Datum.IsRow (P : String → Prop) : Datum → Prop
  | .record fields _ => ∀ f ∈ fields, ∃ s, f.2 = .text s ∧ P s
  | _ => False

def Datum.IsTrimmed (P : String → Prop) (x : Datum) : Prop := ∃ s, x = .text (Text.trim s) ∧ P s

section Rows

variable {P : String → Prop} {v x : Datum}

theorem Line.record_isRow (hempty : P "") {l : Line} (h : ∀ s ∈ l.values, P s)
    (names : List String) : (l.record names).IsRow P := by
  rintro ⟨key, x⟩ hf
  obtain ⟨⟨name, i⟩, -, heq⟩ := List.mem_map.mp (mem_of_mem_fieldsOf hf)
  cases heq
  refine ⟨l.value i, rfl, ?_⟩
  rw [Line.value, List.getD_eq_getElem?_getD]
  cases hi : l.values[i]? with
  | none => exact hempty
  | some s => exact h s (List.mem_of_getElem? hi)

theorem Sheet.records_isRow (hempty : P "") {s : Sheet}
    (h : ∀ l ∈ s.allLines, ∀ text ∈ l.values, P text) (header : Int) :
    ∀ row ∈ s.records header, row.value.IsRow P := by
  intro row hrow
  rw [Sheet.records] at hrow
  split at hrow
  · cases hrow
  · obtain ⟨l, hl, rfl⟩ := List.mem_map.mp hrow
    exact Line.record_isRow hempty (h l (List.mem_filter.mp hl).1) _

namespace Datum.IsRow

theorem selectHeader (hempty : P "") (hv : v.IsRow P) {required : Bool} {name : String}
    (h : selectHeader required name v = .ok x) : x.IsTrimmed P := by
  cases v with
  | record fields markup =>
    simp only [SiteVisit.selectHeader] at h
    split at h
    · next y hy =>
      obtain ⟨s, rfl, hs⟩ := hv _ (mem_of_field? hy)
      cases h
      exact ⟨s, rfl, hs⟩
    · split at h
      · cases h
      · cases h
        exact ⟨"", by rw [Text.trim_empty], hempty⟩
  | _ => exact hv.elim

theorem selectPattern (hempty : P "") (hv : v.IsRow P) {required : Bool} {p : Text.Pattern}
    (h : selectPattern required p v = .ok x) : x.IsTrimmed P := by
  cases v with
  | record fields markup =>
    simp only [SiteVisit.selectPattern] at h
    split at h
    · split at h
      · cases h
      · cases h
        exact ⟨"", by rw [Text.trim_empty], hempty⟩
    · exact hv.selectHeader hempty h
    · cases h
  | _ => exact hv.elim

end Datum.IsRow

namespace Mendable

theorem selectHeader (required : Bool) (name : String) (v : Datum) :
    Mendable (selectHeader required name v) := by
  simp only [SiteVisit.selectHeader]
  split
  · exact ok _
  · split
    · exact problem _
    · exact ok _

theorem selectPattern (hv : v.IsRow P) (required : Bool) (p : Text.Pattern) :
    Mendable (selectPattern required p v) := by
  cases v with
  | record fields markup =>
    simp only [SiteVisit.selectPattern]
    split
    · split
      · exact problem _
      · exact ok _
    · exact selectHeader _ _ _
    · exact problem _
  | _ => exact hv.elim

end Mendable
end Rows

section Batches

variable {spec : Spec} {sheet : Option String}

theorem mapRowsFrom_ok {rows : List NumberedRow} {position : Int} {records : List Datum}
    (h : mapRowsFrom spec sheet position rows = .ok records) :
    List.Forall₂ (fun row r => spec.eval row.value = .ok r) rows records := by
  induction rows generalizing position records with
  | nil =>
    cases h
    exact .nil
  | cons row rest ih =>
    simp only [mapRowsFrom, bind_eq_ok, locating_eq_ok, pure_eq_ok, Except.ok.injEq] at h
    obtain ⟨r, hr, records, hrest, rfl⟩ := h
    exact .cons hr (ih hrest)

theorem mapRows_ok {rows : List NumberedRow} {records : List Datum}
    (h : mapRows spec sheet rows = .ok records) :
    List.Forall₂ (fun row r => spec.eval row.value = .ok r) rows records := by
  obtain ⟨_, _, h⟩ := bind_eq_ok.mp h
  exact mapRowsFrom_ok h

theorem exists_row_of_mapRows {rows : List NumberedRow} {records : List Datum}
    (h : mapRows spec sheet rows = .ok records) {r : Datum} (hr : r ∈ records) :
    ∃ row ∈ rows, spec.eval row.value = .ok r :=
  exists_of_forall₂_right (mapRows_ok h) hr

theorem Mendable.mapRowsFrom {rows : List NumberedRow}
    (h : ∀ row ∈ rows, Mendable (spec.eval row.value)) (position : Int) :
    Mendable (mapRowsFrom spec sheet position rows) := by
  induction rows generalizing position with
  | nil => exact ok []
  | cons row rest ih =>
    obtain ⟨hrow, hrest⟩ := List.forall_mem_cons.mp h
    exact (hrow.locating _).bind fun _ _ => (ih hrest _).bind fun _ _ => ok _

theorem Mendable.mapRows {rows : List NumberedRow} (hspec : spec.check = .ok ())
    (h : ∀ row ∈ rows, Mendable (spec.eval row.value)) : Mendable (mapRows spec sheet rows) := by
  rw [SiteVisit.mapRows, hspec]
  exact Mendable.mapRowsFrom h 1

end Batches
end SiteVisit
