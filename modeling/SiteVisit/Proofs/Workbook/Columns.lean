import Mathlib.Data.Nat.Find
import SiteVisit.Proofs.Workbook.Headers

namespace SiteVisit

section Names

variable {name raw : String}

theorem headerBase_eq_iff (hname : name ≠ "") (hempty : name ≠ emptyHeader) :
    headerBase raw = name ↔ Text.trim raw = name := by
  rw [headerBase]
  split
  · next hblank =>
    rw [String.isEmpty_iff.mp hblank]
    exact iff_of_false hempty.symm hname.symm
  · rfl

theorem getElem?_headerNamesFrom (earlier values : List String) (column : Nat) :
    (headerNamesFrom earlier values)[column]? = values[column]?.map
      (headerName (((values.take column).map headerBase).reverse ++ earlier)) := by
  induction values generalizing earlier column with
  | nil => rfl
  | cons raw rest ih =>
    rw [headerNamesFrom_cons]
    cases column with
    | zero => rfl
    | succ column => simp [ih]

theorem headerName_of_notMem {earlier : List String} (h : headerBase raw ∉ earlier) :
    headerName earlier raw = headerBase raw := by
  simp [headerName, List.count_eq_zero.mpr h]

theorem headerName_of_mem {earlier : List String} (h : headerBase raw ∈ earlier) :
    ∃ tail, headerName earlier raw = headerBase raw ++ ("_" ++ tail) :=
  (headerName_cases earlier raw).resolve_left fun hnew => hnew.2 h

end Names

theorem field?_fieldsOf {α : Type} {pairs : List (String × α)} {key : String} {found : Option α}
    (h : ∀ x, (key, x) ∈ pairs ↔ found = some x) : field? (fieldsOf pairs) key = found := by
  cases hfield : field? (fieldsOf pairs) key with
  | none =>
    cases found with
    | none => rfl
    | some x =>
      have hkey := mem_map_fieldsOf (List.mem_map_of_mem ((h x).mpr rfl))
      rw [← field?_isSome, hfield] at hkey
      cases hkey
  | some x => exact ((h x).mp (mem_of_mem_fieldsOf (mem_of_field? hfield))).symm

theorem nodup_fieldsOf {α : Type} (pairs : List (String × α)) :
    ((fieldsOf pairs).map (·.1)).Nodup := by
  have hgo : ∀ fields : List (String × α), (fields.map (·.1)).Nodup →
      ((pairs.foldl (fun fields p => setField p.1 p.2 fields) fields).map (·.1)).Nodup := by
    induction pairs with
    | nil => exact fun _ h => h
    | cons p pairs ih => exact fun fields h => ih _ (nodup_setField h p.1 p.2)
  exact hgo [] .nil

theorem mem_map_fieldsOf_iff {α : Type} {pairs : List (String × α)} {key : String} :
    key ∈ (fieldsOf pairs).map (·.1) ↔ key ∈ pairs.map (·.1) := by
  refine ⟨fun h => ?_, mem_map_fieldsOf⟩
  obtain ⟨⟨k, x⟩, hmem, rfl⟩ := List.mem_map.mp h
  exact List.mem_map_of_mem (mem_of_mem_fieldsOf hmem)

namespace Text.Pattern

/-- Fits the texts that begin in a given way. No part of the begin can come from the number that a
repeated header has. -/
structure SeeksStart (p : Pattern) (start : List Char) : Prop where
  isIn_iff : ∀ s : String, p.isIn s ↔ start <+: s.toList
  nonempty : start ≠ []
  plain : '_' ∉ start

theorem fits_chars (start : List Char) (atStart : Bool) (cs : List Char) :
    fits false (start.map .char) atStart cs ↔ start <+: cs := by
  induction start generalizing atStart cs with
  | nil => simp [fits]
  | cons a start ih =>
    cases cs with
    | nil => simp [fits]
    | cons c cs => simp [fits, sameChar, ih, List.cons_prefix_cons]

theorem seeksStart_of_atoms {p : Pattern} {start : List Char}
    (hatoms : p.atoms = .start :: start.map .char) (hcase : p.ignoreCase = false)
    (hnonempty : start ≠ []) (hplain : '_' ∉ start) : p.SeeksStart start where
  isIn_iff s := by
    rw [isIn, hatoms, hcase]
    cases hcs : s.toList with
    | nil => simp [occurs, fits, ← fits_chars start true]
    | cons c cs =>
      simp only [occurs, occurs_start, fits, Bool.true_and, Bool.or_false]
      exact fits_chars start true _
  nonempty := hnonempty
  plain := hplain

namespace SeeksStart

variable {p : Pattern} {start : List Char}

theorem isIn_append (hp : p.SeeksStart start) {s : String} (h : p.isIn s) (t : String) :
    p.isIn (s ++ t) := by
  rw [hp.isIn_iff, String.toList_append]
  exact ((hp.isIn_iff s).mp h).trans (List.prefix_append _ _)

theorem isIn_of_append (hp : p.SeeksStart start) {s t : String} (h : p.isIn (s ++ ("_" ++ t))) :
    p.isIn s := by
  rw [hp.isIn_iff, String.toList_append, String.toList_append] at h
  rw [hp.isIn_iff]
  rcases List.prefix_or_prefix_of_prefix h (List.prefix_append _ _) with hstart | ⟨rest, rfl⟩
  · exact hstart
  · have hrest := (List.prefix_append_right_inj _).mp h
    cases rest with
    | nil => simp
    | cons c rest =>
      obtain rfl : c = '_' := (List.cons_prefix_cons.mp hrest).1
      exact (hp.plain (by simp)).elim

theorem not_isIn_empty (hp : p.SeeksStart start) : ¬ p.isIn "" := by
  rw [hp.isIn_iff]
  exact fun h => hp.nonempty (List.prefix_nil.mp h)

theorem not_isIn_emptyHeader (hp : p.SeeksStart start) : ¬ p.isIn emptyHeader := by
  rw [hp.isIn_iff]
  intro h
  obtain ⟨c, rest, rfl⟩ := List.exists_cons_of_ne_nil hp.nonempty
  obtain rfl : c = '_' := (List.cons_prefix_cons.mp h).1
  exact hp.plain List.mem_cons_self

theorem ne_empty (hp : p.SeeksStart start) {s : String} (h : p.isIn s) : s ≠ "" :=
  fun heq => hp.not_isIn_empty (heq ▸ h)

theorem ne_emptyHeader (hp : p.SeeksStart start) {s : String} (h : p.isIn s) : s ≠ emptyHeader :=
  fun heq => hp.not_isIn_emptyHeader (heq ▸ h)

theorem isIn_headerName (hp : p.SeeksStart start) {earlier : List String} {raw : String} :
    p.isIn (headerName earlier raw) ↔ p.isIn (Text.trim raw) := by
  have hbase : p.isIn (headerBase raw) ↔ p.isIn (Text.trim raw) := by
    rw [headerBase]
    split
    · next hblank =>
      rw [String.isEmpty_iff.mp hblank]
      exact iff_of_false hp.not_isIn_emptyHeader hp.not_isIn_empty
    · rfl
  rw [← hbase]
  rcases headerName_cases earlier raw with ⟨heq, -⟩ | ⟨tail, heq⟩
  · rw [heq]
  · rw [heq]
    exact ⟨hp.isIn_of_append, fun h => hp.isIn_append h _⟩

end SeeksStart
end Text.Pattern

namespace Sheet

variable {s t : Sheet} {header row column : Nat} {name : String}

def label (s : Sheet) (header column : Nat) : String := Text.trim (s.cell header column).cellText

structure IsColumn (s : Sheet) (header : Nat) (name : String) (column : Nat) : Prop where
  label_eq : s.label header column = name
  first : ∀ d < column, s.label header d ≠ name

def columnNames (s : Sheet) (header : Nat) : List String :=
  headerNames (s.line s.width header).values

theorem exists_isColumn (h : ∃ column, s.label header column = name) :
    ∃ column, s.IsColumn header name column := by
  classical
  exact ⟨Nat.find h, Nat.find_spec h, fun _ => Nat.find_min h⟩

theorem lt_width_of_label (h : s.label header column ≠ "") : column < s.width := by
  by_contra houtside
  rw [label, cellText_outside (.inr (not_lt.mp houtside))] at h
  exact h rfl

theorem getElem?_columnNames (s : Sheet) (header column : Nat) :
    (s.columnNames header)[column]? =
      if column < s.width then
        some (headerName ((List.range column).map fun d =>
          headerBase (s.cell header d).cellText).reverse (s.cell header column).cellText)
      else none := by
  rw [columnNames, headerNames, getElem?_headerNamesFrom, List.append_nil, line]
  split
  · next hlt =>
    rw [← List.map_take, List.take_range, Nat.min_eq_left hlt.le]
    simp [hlt, Function.comp_def]
  · next hle => simp [not_lt.mp hle]

theorem IsColumn.getElem? (h : s.IsColumn header name column) (hname : name ≠ "")
    (hempty : name ≠ emptyHeader) : (s.columnNames header)[column]? = some name := by
  obtain ⟨hlabel, hfirst⟩ := h
  have hbase : headerBase (s.cell header column).cellText = name :=
    (headerBase_eq_iff hname hempty).mpr hlabel
  rw [getElem?_columnNames, if_pos (lt_width_of_label (by rwa [hlabel])), headerName_of_notMem,
    hbase]
  rw [hbase, List.mem_reverse, List.mem_map]
  rintro ⟨d, hd, hbefore⟩
  exact hfirst d (List.mem_range.mp hd) ((headerBase_eq_iff hname hempty).mp hbefore)

theorem name_of_repeated {d : Nat} (hlabel : s.label header column = name)
    (hbefore : s.label header d = name) (hd : d < column) (hname : name ≠ "")
    (hempty : name ≠ emptyHeader) :
    ∃ tail, (s.columnNames header)[column]? = some (name ++ ("_" ++ tail)) := by
  have hbase {e : Nat} (he : s.label header e = name) :
      headerBase (s.cell header e).cellText = name := (headerBase_eq_iff hname hempty).mpr he
  have hmem : headerBase (s.cell header column).cellText ∈
      ((List.range column).map fun e => headerBase (s.cell header e).cellText).reverse := by
    rw [hbase hlabel, List.mem_reverse, List.mem_map]
    exact ⟨d, List.mem_range.mpr hd, hbase hbefore⟩
  obtain ⟨tail, htail⟩ := headerName_of_mem hmem
  refine ⟨tail, ?_⟩
  rw [getElem?_columnNames, if_pos (lt_width_of_label (by rwa [hlabel])), htail, hbase hlabel]

theorem lt_width_of_columnNames (h : (s.columnNames header)[column]? = some name) :
    column < s.width := by
  by_contra houtside
  rw [getElem?_columnNames, if_neg houtside] at h
  cases h

theorem label_of_columnNames (hplain : '_' ∉ name.toList)
    (h : (s.columnNames header)[column]? = some name) : s.label header column = name := by
  have hlt := lt_width_of_columnNames h
  have htrim := trim_of_headerNamesFrom hplain h
  rwa [← Line.value, line_value s hlt] at htrim

def texts (s : Sheet) (header row : Nat) : List (String × Datum) :=
  fieldsOf ((s.columnNames header).zipIdx.map fun (name, i) =>
    (name, .text ((s.line s.width row).value i)))

def markups (s : Sheet) (header row : Nat) : List (String × String) :=
  fieldsOf (((s.columnNames header).zip (s.line s.width row).markup).filterMap
    fun (name, markup) => (markup.filter (!·.isEmpty)).map (name, ·))

theorem recordAt_value (s : Sheet) (header row : Nat) :
    (s.recordAt header s.width row).value = .record (s.texts header row) (s.markups header row) :=
  rfl

theorem nodup_texts : ((s.texts header row).map (·.1)).Nodup := nodup_fieldsOf _

theorem mem_texts : name ∈ (s.texts header row).map (·.1) ↔ name ∈ s.columnNames header := by
  rw [texts, mem_map_fieldsOf_iff, List.map_map]
  simp [Function.comp_def]

theorem field?_markups_of_unique (hcolumn : (s.columnNames header)[column]? = some name)
    (hone : ∀ i, (s.columnNames header)[i]? = some name → i = column) :
    field? (s.markups header row) name = (s.cell row column).cellMarkup?.filter (!·.isEmpty) := by
  have hlt := lt_width_of_columnNames hcolumn
  have hmarkup : (s.line s.width row).markup[column]? = some (s.cell row column).cellMarkup? := by
    simp [line, hlt]
  refine field?_fieldsOf fun x => ⟨fun hmem => ?_, fun hx => ?_⟩
  · obtain ⟨⟨key, markup⟩, hpair, heq⟩ := List.mem_filterMap.mp hmem
    obtain ⟨text, htext, heq⟩ := Option.map_eq_some_iff.mp heq
    cases heq
    obtain ⟨i, hi⟩ := List.mem_iff_getElem?.mp hpair
    obtain ⟨hkey, hi⟩ := List.getElem?_zip_eq_some.mp hi
    obtain rfl := hone i hkey
    rwa [Option.some.inj (hmarkup.symm.trans hi)]
  · have hpair : (name, (s.cell row column).cellMarkup?) ∈
        (s.columnNames header).zip (s.line s.width row).markup :=
      List.mem_iff_getElem?.mpr
        ⟨column, List.getElem?_zip_eq_some.mpr ⟨hcolumn, hmarkup⟩⟩
    exact List.mem_filterMap.mpr ⟨_, hpair, Option.map_eq_some_iff.mpr ⟨x, hx, rfl⟩⟩

section Named

variable {required : Bool}

def IsPlainName (name : String) : Prop := name ≠ "" ∧ '_' ∉ name.toList

instance (name : String) : Decidable (IsPlainName name) := inferInstanceAs (Decidable (_ ∧ _))

theorem IsPlainName.ne_emptyHeader (h : IsPlainName name) : name ≠ emptyHeader := by
  rintro rfl
  exact h.2 (by decide)

theorem IsColumn.plainName (h : s.IsColumn header name column) (hname : IsPlainName name) :
    (s.columnNames header)[column]? = some name :=
  h.getElem? hname.1 hname.ne_emptyHeader

theorem selectHeader_recordAt (h : s.IsColumn header name column) (hname : IsPlainName name)
    (row : Nat) : selectHeader required name (s.recordAt header s.width row).value =
      .ok (.text (Text.trim (s.cell row column).cellText)) := by
  have hlt := lt_width_of_label (h.label_eq.symm ▸ hname.1)
  rw [← line_value s hlt]
  exact Line.selectHeader_record (h.plainName hname)
    (fun i hi => headerNamesFrom_injective hname.2 hi (h.plainName hname)) _ _

theorem notMem_columnNames (h : ∀ column, s.label header column ≠ name)
    (hplain : '_' ∉ name.toList) : name ∉ s.columnNames header := by
  intro hmem
  obtain ⟨column, hcolumn⟩ := List.mem_iff_getElem?.mp hmem
  exact h column (label_of_columnNames hplain hcolumn)

theorem selectHeader_recordAt_none (h : ∀ column, s.label header column ≠ name)
    (hplain : '_' ∉ name.toList) (row : Nat) :
    selectHeader required name (s.recordAt header s.width row).value =
      if required then .error (.ofMapping (.fieldNotFound (.header name))) else .ok (.text "") := by
  have hnone : field? (s.texts header row) name = none := by
    rw [Option.eq_none_iff_forall_ne_some]
    exact fun x hx => notMem_columnNames h hplain
      (mem_texts.mp (List.mem_map_of_mem (mem_of_field? hx)))
  simp only [recordAt_value, selectHeader, hnone]

def markupValue (cell : Datum) : Datum :=
  match cell.cellMarkup?.filter (!·.isEmpty) with
  | some m => .text m
  | none => .null

theorem field?_markups (h : s.IsColumn header name column) (hname : IsPlainName name) :
    field? (s.markups header row) name = (s.cell row column).cellMarkup?.filter (!·.isEmpty) :=
  field?_markups_of_unique (h.plainName hname)
    fun _ hi => headerNamesFrom_injective hname.2 hi (h.plainName hname)

theorem markupOf_recordAt (h : s.IsColumn header name column) (hname : IsPlainName name)
    (row : Nat) : Transform.markupOf name (s.recordAt header s.width row).value =
      .ok (markupValue (s.cell row column)) := by
  simp only [recordAt_value, Transform.markupOf, field?_markups h hname, Option.filter_filter,
    Bool.and_self]
  rfl

theorem markupOf_recordAt_none (h : ∀ column, s.label header column ≠ name)
    (hplain : '_' ∉ name.toList) (row : Nat) :
    Transform.markupOf name (s.recordAt header s.width row).value = .ok .null := by
  have hnone : field? (s.markups header row) name = none := by
    refine field?_fieldsOf fun x => iff_of_false (fun hmem => ?_) (by simp)
    obtain ⟨⟨key, markup⟩, hkey, heq⟩ := List.mem_filterMap.mp hmem
    obtain ⟨text, -, heq⟩ := Option.map_eq_some_iff.mp heq
    cases heq
    exact notMem_columnNames h hplain (List.of_mem_zip hkey).1
  simp only [recordAt_value, Transform.markupOf, hnone]
  rfl

end Named

section Sought

variable {p : Text.Pattern} {start : List Char} {key : String} {x : Datum}

/-- The only column whose label a pattern fits. -/
def IsOnlyColumn (s : Sheet) (header : Nat) (p : Text.Pattern) (column : Nat) : Prop :=
  ∀ d, p.isIn (s.label header d) ↔ d = column

theorem IsOnlyColumn.lt_width (h : s.IsOnlyColumn header p column) (hp : p.SeeksStart start) :
    column < s.width :=
  lt_width_of_label (hp.ne_empty ((h column).mpr rfl))

theorem isIn_columnNames (hp : p.SeeksStart start)
    (h : (s.columnNames header)[column]? = some key) :
    p.isIn key ↔ p.isIn (s.label header column) := by
  rw [getElem?_columnNames] at h
  split at h
  · obtain rfl := Option.some.inj h
    exact hp.isIn_headerName
  · cases h

theorem mem_matchingHeaders (hp : p.SeeksStart start) :
    key ∈ matchingHeaders p (s.texts header row) ↔
      ∃ column, (s.columnNames header)[column]? = some key ∧ p.isIn (s.label header column) := by
  rw [matchingHeaders, List.mem_filter, mem_texts, List.mem_iff_getElem?]
  constructor
  · rintro ⟨⟨column, hcolumn⟩, hkey⟩
    exact ⟨column, hcolumn, (isIn_columnNames hp hcolumn).mp hkey⟩
  · rintro ⟨column, hcolumn, hlabel⟩
    exact ⟨⟨column, hcolumn⟩, (isIn_columnNames hp hcolumn).mpr hlabel⟩

theorem matchingHeaders_of_isOnlyColumn (hp : p.SeeksStart start)
    (honly : s.IsOnlyColumn header p column) (hkey : (s.columnNames header)[column]? = some key) :
    matchingHeaders p (s.texts header row) = [key] := by
  have hnodup : (matchingHeaders p (s.texts header row)).Nodup := nodup_texts.filter _
  refine List.perm_singleton.mp ((List.perm_ext_iff_of_nodup hnodup (List.nodup_singleton key)).mpr
    fun k => ?_)
  rw [mem_matchingHeaders hp, List.mem_singleton]
  constructor
  · rintro ⟨i, hi, hfits⟩
    rw [(honly i).mp hfits, hkey] at hi
    exact (Option.some.inj hi).symm
  · rintro rfl
    exact ⟨column, hkey, (honly column).mpr rfl⟩

theorem exists_isOnlyColumn (hp : p.SeeksStart start)
    (h : matchingHeaders p (s.texts header row) = [key]) :
    ∃ column, s.IsOnlyColumn header p column ∧ (s.columnNames header)[column]? = some key := by
  have hfound (k : String) (column : Nat) (hcolumn : (s.columnNames header)[column]? = some k)
      (hfits : p.isIn (s.label header column)) : k = key := by
    rw [← List.mem_singleton, ← h]
    exact (mem_matchingHeaders hp).mpr ⟨column, hcolumn, hfits⟩
  -- Every label that fits is the name of the first column that has it.
  have hlabel (d : Nat) (hd : p.isIn (s.label header d)) : s.label header d = key := by
    obtain ⟨e, he⟩ := exists_isColumn (s := s) ⟨d, rfl⟩
    exact hfound _ e (he.getElem? (hp.ne_empty hd) (hp.ne_emptyHeader hd)) (he.label_eq.symm ▸ hd)
  obtain ⟨i, -, hi⟩ := (mem_matchingHeaders hp).mp (h ▸ List.mem_singleton_self key)
  obtain ⟨column, hcolumn⟩ := exists_isColumn ⟨i, hlabel i hi⟩
  rw [hlabel i hi] at hi
  have hkey := hcolumn.getElem? (hp.ne_empty hi) (hp.ne_emptyHeader hi)
  refine ⟨column, fun d => ⟨fun hd => ?_, fun hd => ?_⟩, hkey⟩
  · -- A second column with the label would have another name.
    by_contra hne
    have hbefore : column < d :=
      lt_of_le_of_ne (not_lt.mp fun hlt => hcolumn.first d hlt (hlabel d hd)) (Ne.symm hne)
    obtain ⟨tail, htail⟩ := name_of_repeated (hlabel d hd) hcolumn.label_eq hbefore
      (hp.ne_empty hi) (hp.ne_emptyHeader hi)
    simpa using congrArg String.length (hfound _ d htail hd)
  · rwa [hd, hcolumn.label_eq]

theorem selectPattern_recordAt (hp : p.SeeksStart start) :
    selectPattern true p (s.recordAt header s.width row).value = .ok x ↔
      ∃ column, s.IsOnlyColumn header p column ∧
        x = .text (Text.trim (s.cell row column).cellText) := by
  have hvalue {column : Nat} {key : String} (honly : s.IsOnlyColumn header p column)
      (hkey : (s.columnNames header)[column]? = some key) :
      selectHeader true key (s.recordAt header s.width row).value =
        .ok (.text (Text.trim (s.cell row column).cellText)) := by
    rw [← line_value s (honly.lt_width hp)]
    refine Line.selectHeader_record hkey (fun i hi => ?_) _ _
    rw [← honly i, ← isIn_columnNames hp hi, isIn_columnNames hp hkey]
    exact (honly column).mpr rfl
  have hkeys : selectPattern true p (s.recordAt header s.width row).value = .ok x ↔
      ∃ key, matchingHeaders p (s.texts header row) = [key] ∧
        selectHeader true key (s.recordAt header s.width row).value = .ok x := by
    rw [recordAt_value, selectPattern]
    rcases matchingHeaders p (s.texts header row) with _ | ⟨first, _ | ⟨second, rest⟩⟩ <;> simp
  rw [hkeys]
  constructor
  · rintro ⟨key, hmatching, hx⟩
    obtain ⟨column, honly, hkey⟩ := exists_isOnlyColumn hp hmatching
    rw [hvalue honly hkey, Except.ok.injEq] at hx
    exact ⟨column, honly, hx.symm⟩
  · rintro ⟨column, honly, rfl⟩
    obtain ⟨key, hkey⟩ : ∃ key, (s.columnNames header)[column]? = some key := by
      rw [getElem?_columnNames, if_pos (honly.lt_width hp)]
      exact ⟨_, rfl⟩
    exact ⟨key, matchingHeaders_of_isOnlyColumn hp honly hkey, hvalue honly hkey⟩

end Sought

theorem recordRows_congr (hhidden : s.hidden = t.hidden)
    (hblank : ∀ row, header < row → s.isHidden (row + 1) = false →
      ((∀ column, (s.cell row column).cellText = "") ↔
        ∀ column, (t.cell row column).cellText = "")) :
    s.recordRows header = t.recordRows header := by
  rw [recordRows_eq (le_max_left s.height t.height) le_rfl,
    recordRows_eq (le_max_right s.height t.height) le_rfl]
  refine List.filter_congr fun row _ => ?_
  have hvisible : t.isHidden (row + 1) = s.isHidden (row + 1) := by
    rw [isHidden, isHidden, hhidden]
  rw [Bool.eq_iff_iff, hasRecord_iff, hasRecord_iff, hvisible]
  refine and_congr_right fun hrow => and_congr_left fun hshown => ?_
  rw [← Bool.not_eq_true, ← Bool.not_eq_true, isBlank_iff, isBlank_iff, hblank row hrow hshown]

end Sheet
end SiteVisit
