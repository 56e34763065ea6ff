import SiteVisit.Proofs.Text.Decimal
import SiteVisit.Proofs.Workbook.Columns

/-!
Headers that come up more than once. Their columns have names with numbers, which tell them apart
from each other, but not from a header that is written with such a number.
-/

namespace SiteVisit

section Counted

variable {α : Type} [BEq α] [LawfulBEq α] {items : List α} {a : α} {i j n : Nat}

theorem count_take_lt (h : items[i]? = some a) (hij : i < j) :
    (items.take i).count a < (items.take j).count a := by
  have hlast : (items.take (i + 1)).count a = (items.take i).count a + 1 := by
    rw [List.take_add_one, h, List.count_append]
    simp
  have hsub : (items.take (i + 1)).Sublist (items.take j) := List.take_sublist_take_left hij
  have hle := hsub.count_le a
  omega

theorem count_take_lt_count (h : items[i]? = some a) :
    (items.take i).count a < items.count a := by
  obtain ⟨hi, -⟩ := List.getElem?_eq_some_iff.mp h
  have hlt := count_take_lt h hi
  rwa [List.take_length] at hlt

theorem exists_count_take (h : n < items.count a) :
    ∃ i, items[i]? = some a ∧ (items.take i).count a = n := by
  induction items generalizing n with
  | nil => exact absurd h (Nat.not_lt_zero n)
  | cons first rest ih =>
    by_cases hfirst : first = a
    · subst hfirst
      cases n with
      | zero => exact ⟨0, rfl, rfl⟩
      | succ n =>
        rw [List.count_cons_self] at h
        obtain ⟨i, hi, hcount⟩ := ih (Nat.lt_of_succ_lt_succ h)
        exact ⟨i + 1, hi, by rw [List.take_succ_cons, List.count_cons_self, hcount]⟩
    · rw [List.count_cons_of_ne hfirst] at h
      obtain ⟨i, hi, hcount⟩ := ih h
      exact ⟨i + 1, hi, by rw [List.take_succ_cons, List.count_cons_of_ne hfirst, hcount]⟩

end Counted

def suffixed (base : String) (n : Nat) : String := base ++ "_" ++ Text.decimal n

section Suffixed

variable {base other : String} {m n : Nat}

theorem toList_suffixed (base : String) (n : Nat) :
    (suffixed base n).toList = base.toList ++ '_' :: (Text.decimal n).toList := by
  rw [suffixed, String.toList_append, String.toList_append, List.append_assoc]
  rfl

theorem suffixed_ne (base : String) (n : Nat) : suffixed base n ≠ base := by
  intro h
  have hlength := congrArg (fun s => s.toList.length) h
  simp [toList_suffixed] at hlength

theorem suffixed_inj : suffixed base m = suffixed other n ↔ base = other ∧ m = n := by
  refine ⟨fun h => ?_, fun ⟨hbase, hnumber⟩ => by rw [hbase, hnumber]⟩
  have hlists := congrArg String.toList h
  rw [toList_suffixed, toList_suffixed] at hlists
  obtain ⟨hbase, hnumber⟩ := append_cons_inj (underscore_notMem_decimal m)
    (underscore_notMem_decimal n) hlists
  exact ⟨String.toList_inj.mp hbase, Text.decimal_inj.mp (String.toList_inj.mp hnumber)⟩

end Suffixed

def columnName (base : String) (before : Nat) : String :=
  if before = 0 then base else suffixed base before

theorem getElem?_headerNames (values : List String) (column : Nat) :
    (headerNames values)[column]? = ((values.map headerBase)[column]?).map fun base =>
      columnName base (((values.map headerBase).take column).count base) := by
  rw [headerNames, getElem?_headerNamesFrom, List.getElem?_map, Option.map_map]
  refine congrArg (fun name => values[column]?.map name) (funext fun raw => ?_)
  simp only [headerName, Function.comp_apply, columnName, suffixed, List.append_nil,
    List.count_reverse, beq_iff_eq, List.map_take]

section Columns

variable {values : List String} {i j : Nat} {base other name : String} {n : Nat}

/-- Two columns get one name if a header that comes up again gets a number with which another header
is written. -/
theorem exists_suffixed (hij : i < j) (hi : (headerNames values)[i]? = some name)
    (hj : (headerNames values)[j]? = some name) :
    ∃ base n, 0 < n ∧ n < (values.map headerBase).count base ∧
      suffixed base n ∈ values.map headerBase := by
  rw [getElem?_headerNames, Option.map_eq_some_iff] at hi hj
  obtain ⟨first, hfirst, hname⟩ := hi
  obtain ⟨second, hsecond, hname'⟩ := hj
  have hbefore := count_take_lt hfirst hij
  have hcount := count_take_lt_count hfirst
  have hcount' := count_take_lt_count hsecond
  have heq := hname.trans hname'.symm
  simp only [columnName] at heq
  split at heq
  · next hnew =>
    split at heq
    · -- Both are without a number, so the second is met for the first time.
      next hnew' =>
      subst heq
      omega
    · next hagain' =>
      exact ⟨second, _, Nat.pos_of_ne_zero hagain', hcount', heq ▸ List.mem_of_getElem? hfirst⟩
  · next hagain =>
    split at heq
    · exact ⟨first, _, Nat.pos_of_ne_zero hagain, hcount, heq ▸ List.mem_of_getElem? hsecond⟩
    · obtain ⟨rfl, hsame⟩ := suffixed_inj.mp heq
      omega

theorem not_nodup_of_suffixed (hn : 0 < n) (hcount : n < (values.map headerBase).count base)
    (hmem : suffixed base n ∈ values.map headerBase) : ¬ (headerNames values).Nodup := by
  obtain ⟨i, hi, hbefore⟩ := exists_count_take hcount
  obtain ⟨j, hj, hnew⟩ := exists_count_take (List.count_pos_iff.mpr hmem)
  have hnameI : (headerNames values)[i]? = some (suffixed base n) := by
    rw [getElem?_headerNames, hi, Option.map_some, hbefore, columnName, if_neg (Nat.ne_of_gt hn)]
  have hnameJ : (headerNames values)[j]? = some (suffixed base n) := by
    rw [getElem?_headerNames, hj, Option.map_some, hnew, columnName, if_pos rfl]
  have hne : i ≠ j := by
    rintro rfl
    exact suffixed_ne base n (Option.some.inj (hj.symm.trans hi))
  intro hnodup
  obtain ⟨hlt, -⟩ := List.getElem?_eq_some_iff.mp hnameI
  exact hne ((List.getElem?_inj hlt hnodup).mp (hnameI.trans hnameJ.symm))

end Columns

theorem Line.record_eq (names : List String) (l : Line) : ∃ markup,
    l.record names = .record (fieldsOf (names.zipIdx.map fun p => (p.1, .text (l.value p.2)))) markup :=
  ⟨_, rfl⟩

theorem Line.field?_record {names : List String} {column : Nat} {name : String}
    (hname : names[column]? = some name)
    (hlast : ∀ later, column < later → names[later]? ≠ some name) (l : Line) :
    ∃ fields markup, l.record names = .record fields markup ∧
      field? fields name = some (.text (l.value column)) := by
  obtain ⟨markup, hrecord⟩ := l.record_eq names
  refine ⟨_, markup, hrecord, ?_⟩
  obtain ⟨hlt, hget⟩ := List.getElem?_eq_some_iff.mp hname
  have hsplit : names.zipIdx = (names.zipIdx.take column) ++
      (name, column) :: names.zipIdx.drop (column + 1) := by
    have hlt' : column < names.zipIdx.length := by rwa [List.length_zipIdx]
    have hpair : names.zipIdx[column] = (name, column) := by simp [hget]
    rw [← hpair, List.getElem_cons_drop, List.take_append_drop]
  rw [hsplit, List.map_append, List.map_cons]
  refine field?_fieldsOf_last fun hmem => ?_
  have hnames : ((names.zipIdx.drop (column + 1)).map fun p =>
      (p.1, Datum.text (l.value p.2))).map (·.1) = names.drop (column + 1) := by
    rw [List.map_map, Function.comp_def, List.map_drop, List.zipIdx_map_fst]
  rw [hnames, List.mem_iff_getElem?] at hmem
  obtain ⟨k, hk⟩ := hmem
  rw [List.getElem?_drop] at hk
  exact hlast (column + 1 + k) (by omega) hk

/-- Every header gives a name. The names differ unless a header is written like one that comes up
again with the number that this one gets. A row keeps the texts of all columns whose names differ
from those to their right. -/
theorem headerNames_differ (values : List String) :
    (headerNames values).length = values.length ∧
    ((headerNames values).Nodup ↔ ∀ base n, 0 < n → n < (values.map headerBase).count base →
      suffixed base n ∉ values.map headerBase) ∧
    ∀ (l : Line) (column : Nat) (name : String), (headerNames values)[column]? = some name →
      (∀ later, column < later → (headerNames values)[later]? ≠ some name) →
      ∃ fields markup, l.record (headerNames values) = .record fields markup ∧
        field? fields name = some (.text (l.value column)) := by
  refine ⟨length_headerNamesFrom [] values, ⟨fun h base n hn hcount hmem => ?_, fun h => ?_⟩,
    fun l column name hname hlast => Line.field?_record hname hlast l⟩
  · exact not_nodup_of_suffixed hn hcount hmem h
  · rw [List.nodup_iff_getElem?_ne_getElem?]
    intro i j hij hj heq
    have hname := List.getElem?_eq_getElem hj
    obtain ⟨base, n, hn, hcount, hmem⟩ := exists_suffixed hij (heq.trans hname) hname
    exact h base n hn hcount hmem

/-- A header that comes up twice and one that is written like the second of them. -/
theorem headerNames_meet :
    headerNames ["A", "A", "A_1"] = ["A", "A_1", "A_1"] ∧
    ¬ (headerNames ["A", "A", "A_1"]).Nodup ∧
    Line.record (headerNames ["A", "A", "A_1"]) ⟨2, ["1", "2", "3"], []⟩ =
      .record [("A", .text "1"), ("A_1", .text "3")] [] := by
  have hnames : headerNames ["A", "A", "A_1"] = ["A", "A_1", "A_1"] := by decide
  rw [hnames]
  exact ⟨rfl, by decide, rfl⟩

end SiteVisit
