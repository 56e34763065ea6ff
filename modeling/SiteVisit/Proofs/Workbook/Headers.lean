import SiteVisit.Proofs.Mapping.Titled
import SiteVisit.Proofs.Text.Blank
import SiteVisit.Proofs.Workbook.Cells

namespace SiteVisit

def headerBase (raw : String) : String :=
  if (Text.trim raw).isEmpty then emptyHeader else Text.trim raw

def headerName (earlier : List String) (raw : String) : String :=
  if earlier.count (headerBase raw) == 0 then headerBase raw
  else headerBase raw ++ "_" ++ Text.decimal (earlier.count (headerBase raw))

theorem headerNamesFrom_cons (earlier : List String) (raw : String) (rest : List String) :
    headerNamesFrom earlier (raw :: rest) =
      headerName earlier raw :: headerNamesFrom (headerBase raw :: earlier) rest := rfl

section Names

variable {earlier : List String} {name : String}

theorem headerName_cases (earlier : List String) (raw : String) :
    headerName earlier raw = headerBase raw ∧ headerBase raw ∉ earlier ∨
      ∃ tail, headerName earlier raw = headerBase raw ++ ("_" ++ tail) := by
  simp only [headerName]
  split
  · next h => exact .inl ⟨rfl, List.count_eq_zero.mp (beq_iff_eq.mp h)⟩
  · exact .inr ⟨_, String.append_assoc ..⟩

theorem headerName_eq {raw : String} (hname : '_' ∉ name.toList)
    (h : headerName earlier raw = name) : Text.trim raw = name ∧ headerBase raw = name ∧
      name ∉ earlier := by
  rcases headerName_cases earlier raw with ⟨hbase, hnew⟩ | ⟨tail, htail⟩
  · obtain rfl : headerBase raw = name := hbase.symm.trans h
    refine ⟨?_, rfl, hnew⟩
    rw [headerBase] at hname ⊢
    split
    · next hblank =>
      rw [if_pos hblank] at hname
      exact (hname (by decide)).elim
    · rfl
  · rw [← h, htail] at hname
    simp at hname

theorem isTitle_append_emptyHeader (tail : String) : isTitle (emptyHeader ++ tail) = false := by
  simp [isTitle]

theorem isTitle_headerName_blank (earlier : List String) : isTitle (headerName earlier "") = false := by
  have hbase : headerBase "" = emptyHeader := by
    rw [headerBase, Text.trim_empty]
    rfl
  rcases headerName_cases earlier "" with ⟨h, -⟩ | ⟨tail, h⟩
  · rw [h, hbase]
    decide
  · rw [h, hbase, isTitle_append_emptyHeader]

theorem length_headerNamesFrom (earlier values : List String) :
    (headerNamesFrom earlier values).length = values.length := by
  induction values generalizing earlier with
  | nil => rfl
  | cons raw rest ih => rw [headerNamesFrom_cons, List.length_cons, List.length_cons, ih]

theorem headerNamesFrom_append (earlier values more : List String) :
    ∃ later, headerNamesFrom earlier (values ++ more) =
      headerNamesFrom earlier values ++ headerNamesFrom later more := by
  induction values generalizing earlier with
  | nil => exact ⟨earlier, rfl⟩
  | cons raw rest ih =>
    obtain ⟨later, h⟩ := ih (headerBase raw :: earlier)
    exact ⟨later, by rw [List.cons_append, headerNamesFrom_cons, h, headerNamesFrom_cons,
      List.cons_append]⟩

theorem isTitle_headerNamesFrom_blank (earlier : List String) (n : Nat) :
    ∀ name ∈ headerNamesFrom earlier (List.replicate n ""), isTitle name = false := by
  induction n generalizing earlier with
  | zero => exact fun _ h => absurd h List.not_mem_nil
  | succ n ih =>
    rw [List.replicate_succ, headerNamesFrom_cons]
    exact List.forall_mem_cons.mpr ⟨isTitle_headerName_blank earlier, ih _⟩

theorem trim_of_headerNamesFrom {values : List String} {column : Nat} (hname : '_' ∉ name.toList)
    (h : (headerNamesFrom earlier values)[column]? = some name) :
    Text.trim (values.getD column "") = name := by
  induction values generalizing earlier column with
  | nil => cases h
  | cons raw rest ih =>
    rw [headerNamesFrom_cons] at h
    cases column with
    | zero => exact (headerName_eq hname (Option.some.inj h)).1
    | succ column => exact ih h

theorem not_mem_of_mem_headerNamesFrom {values : List String} (hname : '_' ∉ name.toList)
    (h : name ∈ headerNamesFrom earlier values) : name ∉ earlier := by
  induction values generalizing earlier with
  | nil => cases h
  | cons raw rest ih =>
    rw [headerNamesFrom_cons] at h
    rcases List.mem_cons.mp h with h | h
    · exact (headerName_eq hname h.symm).2.2
    · exact fun hmem => ih h (List.mem_cons_of_mem _ hmem)

theorem headerNamesFrom_injective {values : List String} {i j : Nat} (hname : '_' ∉ name.toList)
    (hi : (headerNamesFrom earlier values)[i]? = some name)
    (hj : (headerNamesFrom earlier values)[j]? = some name) : i = j := by
  induction values generalizing earlier i j with
  | nil => cases hi
  | cons raw rest ih =>
    rw [headerNamesFrom_cons] at hi hj
    -- The name of the first column is not met again.
    have hfirst {k : Nat} (hzero : headerName earlier raw = name) :
        (headerNamesFrom (headerBase raw :: earlier) rest)[k]? ≠ some name := fun hk =>
      not_mem_of_mem_headerNamesFrom hname (List.mem_of_getElem? hk)
        ((headerName_eq hname hzero).2.1 ▸ List.mem_cons_self)
    cases i with
    | zero =>
      cases j with
      | zero => rfl
      | succ j => exact (hfirst (Option.some.inj hi) hj).elim
    | succ i =>
      cases j with
      | zero => exact (hfirst (Option.some.inj hj) hi).elim
      | succ j => exact congrArg (· + 1) (ih hi hj)

end Names

namespace Line

variable {l : Line}

theorem titled_record_widened (values : List String) (hmarkup : l.markup.length = values.length)
    (more : Nat) :
    ((l.widened more).record (headerNames (values ++ List.replicate more ""))).titled =
      (l.record (headerNames values)).titled := by
  obtain ⟨later, hnames⟩ := headerNamesFrom_append [] values (List.replicate more "")
  have hextra := isTitle_headerNamesFrom_blank later more
  have hlength : (headerNames values).length = l.markup.length := by
    rw [hmarkup]
    exact length_headerNamesFrom [] values
  simp only [headerNames] at hlength
  simp only [record, Datum.titled, titledFields_fieldsOf, headerNames, hnames, widened_value,
    Datum.record.injEq]
  constructor
  · rw [List.zipIdx_append, List.map_append, titledFields_append]
    rintro f hf
    obtain ⟨⟨name, i⟩, hname, rfl⟩ := List.mem_map.mp hf
    exact hextra name (List.fst_mem_of_mem_zipIdx hname)
  · rw [widened, List.zip_append hlength, List.filterMap_append, titledFields_append]
    rintro f hf
    obtain ⟨⟨name, markup⟩, hname, hf⟩ := List.mem_filterMap.mp hf
    obtain ⟨text, -, rfl⟩ := Option.map_eq_some_iff.mp hf
    exact hextra name (List.of_mem_zip hname).1

theorem selectHeader_record {names : List String} {name : String} {column : Nat}
    (hcolumn : names[column]? = some name) (hone : ∀ i, names[i]? = some name → i = column)
    (l : Line) (required : Bool) :
    selectHeader required name (l.record names) = .ok (.text (Text.trim (l.value column))) := by
  have hmem {key : String} {x : Datum} :
      (key, x) ∈ names.zipIdx.map (fun p => (p.1, Datum.text (l.value p.2))) ↔
        ∃ i, names[i]? = some key ∧ x = .text (l.value i) := by
    simp only [List.mem_map, Prod.exists, List.mem_zipIdx_iff_getElem?, Prod.mk.injEq]
    grind
  have hsome := field?_isSome.mpr
    (mem_map_fieldsOf (List.mem_map_of_mem (hmem.mpr ⟨column, hcolumn, rfl⟩)))
  obtain ⟨x, hx⟩ := Option.isSome_iff_exists.mp hsome
  obtain ⟨i, hi, rfl⟩ := hmem.mp (mem_of_mem_fieldsOf (mem_of_field? hx))
  obtain rfl := hone i hi
  simp only [record, selectHeader, hx, Datum.clean]

end Line

namespace Sheet

variable {s t : Sheet} {header height width row : Nat}

def hasRecord (s : Sheet) (header width row : Nat) : Bool :=
  header < row && !(s.line width row).isBlank && !s.isHidden (row + 1)

def recordRows (s : Sheet) (header : Nat) : List Nat :=
  (List.range s.height).filter (s.hasRecord header s.width)

def recordAt (s : Sheet) (header width row : Nat) : NumberedRow :=
  ⟨some (row + 1 : Nat), (s.line width row).record (headerNames (s.line width header).values)⟩

theorem hasRecord_iff : s.hasRecord header width row ↔
    header < row ∧ (s.line width row).isBlank = false ∧ s.isHidden (row + 1) = false := by
  simp only [hasRecord, Bool.and_eq_true, decide_eq_true_eq, Bool.not_eq_true', and_assoc]

theorem records_eq (s : Sheet) (header : Nat) :
    s.records header = (s.recordRows header).map (s.recordAt header s.width) := by
  rw [records, lineAt?_allLines]
  by_cases hheader : header < s.height
  · simp only [if_pos hheader, allLines_eq, List.filter_map, List.map_map, Function.comp_def,
      line_number, Nat.add_lt_add_iff_right]
    rfl
  · have hrows : s.recordRows header = [] := by
      refine List.filter_eq_nil_iff.mpr fun row hrow hrecord => hheader ?_
      exact (hasRecord_iff.mp hrecord).1.trans (List.mem_range.mp hrow)
    simp only [if_neg hheader, hrows, List.map_nil]

theorem records_of_outside {position : Int} (h : ∀ row : Nat, row < s.height → position ≠ row) :
    s.records position = [] := by
  have hnone : lineAt? s.allLines position = none := by
    by_contra hsome
    obtain ⟨l, hl⟩ := Option.ne_none_iff_exists'.mp hsome
    obtain ⟨row, hposition, hrow, -⟩ := exists_of_lineAt? hl
    exact h row hrow hposition
  rw [records, hnone]

theorem recordRows_eq (hheight : s.height ≤ height) (hwidth : s.width ≤ width) :
    s.recordRows header = (List.range height).filter (s.hasRecord header width) := by
  obtain ⟨more, rfl⟩ := Nat.exists_eq_add_of_le hwidth
  obtain ⟨below, rfl⟩ := Nat.exists_eq_add_of_le hheight
  have hwide : s.hasRecord header (s.width + more) = s.hasRecord header s.width := by
    funext row
    rw [hasRecord, hasRecord, line_widened, Line.widened_isBlank]
  have hbelow : (List.range below).filter (fun i => s.hasRecord header s.width (s.height + i)) =
      [] := by
    refine List.filter_eq_nil_iff.mpr fun i _ hrecord => ?_
    have hblank : (s.line s.width (s.height + i)).isBlank :=
      line_isBlank.mpr fun _ _ => cellText_outside (.inl (Nat.le_add_right _ _))
    rw [(hasRecord_iff.mp hrecord).2.1] at hblank
    cases hblank
  rw [hwide, List.range_add, List.filter_append, List.filter_map, Function.comp_def, hbelow,
    List.map_nil, List.append_nil, recordRows]

theorem titled_recordAt (hwidth : s.width ≤ width) (header row : Nat) :
    (s.recordAt header width row).titled = (s.recordAt header s.width row).titled := by
  obtain ⟨more, rfl⟩ := Nat.exists_eq_add_of_le hwidth
  simp only [recordAt, NumberedRow.titled, line_widened]
  refine congrArg _ (Line.titled_record_widened _ ?_ more)
  simp [line]

theorem headerNames_line (hwidth : s.width ≤ width) {column : Nat} {name : String}
    (hname : isTitle name) :
    (headerNames (s.line width header).values)[column]? = some name ↔
      (headerNames (s.line s.width header).values)[column]? = some name := by
  obtain ⟨more, rfl⟩ := Nat.exists_eq_add_of_le hwidth
  obtain ⟨later, hnames⟩ :=
    headerNamesFrom_append [] (s.line s.width header).values (List.replicate more "")
  have hextra := isTitle_headerNamesFrom_blank later more
  rw [line_widened, headerNames, headerNames, Line.widened, hnames, List.getElem?_append]
  split
  · rfl
  · next hcolumn =>
    rw [List.getElem?_eq_none (not_lt.mp hcolumn)]
    refine iff_of_false (fun h => ?_) (by simp)
    rw [hextra name (List.mem_of_getElem? h)] at hname
    cases hname

theorem line_congr (h : ∀ column, s.cell row column = t.cell row column) (width : Nat) :
    s.line width row = t.line width row := by
  simp only [line, h]

theorem titled_records_congr {p q : Nat → Bool} (hhidden : s.hidden = t.hidden)
    (hheader : ∀ column, s.cell header column = t.cell header column)
    (hpq : ∀ row, header < row → s.isHidden (row + 1) = false → p row = q row)
    (hrows : ∀ row, header < row → s.isHidden (row + 1) = false → p row →
      ∀ column, s.cell row column = t.cell row column) :
    (((s.recordRows header).filter p).map (s.recordAt header s.width)).map NumberedRow.titled =
      (((t.recordRows header).filter q).map (t.recordAt header t.width)).map
        NumberedRow.titled := by
  have hs := le_max_left s.width t.width
  have ht := le_max_right s.width t.width
  -- Both sheets are read at the greater of their widths and heights, where they have the same rows.
  have hlines : ∀ row, header < row → s.isHidden (row + 1) = false → p row →
      s.line (max s.width t.width) row = t.line (max s.width t.width) row :=
    fun row hrow hvisible hp => line_congr (hrows row hrow hvisible hp) _
  have hfilter : (List.range (max s.height t.height)).filter
      (fun row => p row && s.hasRecord header (max s.width t.width) row) =
      (List.range (max s.height t.height)).filter
        (fun row => q row && t.hasRecord header (max s.width t.width) row) := by
    refine List.filter_congr fun row _ => ?_
    rw [Bool.eq_iff_iff, Bool.and_eq_true, Bool.and_eq_true, hasRecord_iff, hasRecord_iff,
      show t.isHidden (row + 1) = s.isHidden (row + 1) by rw [isHidden, isHidden, hhidden]]
    constructor
    · rintro ⟨hp, hrow, hfilled, hvisible⟩
      exact ⟨hpq row hrow hvisible ▸ hp, hrow, hlines row hrow hvisible hp ▸ hfilled, hvisible⟩
    · rintro ⟨hq, hrow, hfilled, hvisible⟩
      have hp : p row := (hpq row hrow hvisible).trans hq
      exact ⟨hp, hrow, (hlines row hrow hvisible hp).symm ▸ hfilled, hvisible⟩
  rw [recordRows_eq (le_max_left s.height t.height) hs,
    recordRows_eq (le_max_right s.height t.height) ht]
  simp only [List.map_map, Function.comp_def, ← titled_recordAt hs, ← titled_recordAt ht,
    List.filter_filter, ← hfilter]
  refine List.map_congr_left fun row hmem => ?_
  obtain ⟨hp, hrecord⟩ := Bool.and_eq_true_iff.mp (List.mem_filter.mp hmem).2
  obtain ⟨hrow, -, hvisible⟩ := hasRecord_iff.mp hrecord
  rw [recordAt, recordAt, hlines row hrow hvisible hp, line_congr hheader]

end Sheet
end SiteVisit
