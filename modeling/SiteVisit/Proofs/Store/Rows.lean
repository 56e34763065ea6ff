import Mathlib.Data.List.Nodup
import SiteVisit.Proofs.Store.Session
import SiteVisit.Store.Populate

namespace SiteVisit.Store

variable {α ρ : Type} {row : α → Nat → ρ}

def rowsFrom (row : α → Nat → ρ) : Nat → List α → List ρ
  | _, [] => []
  | k, a :: rest => row a k :: rowsFrom row (k + 1) rest

@[simp] theorem length_rowsFrom (k : Nat) (items : List α) :
    (rowsFrom row k items).length = items.length := by
  induction items generalizing k with
  | nil => rfl
  | cons a rest ih => simp only [rowsFrom, List.length_cons, ih]

theorem getElem?_rowsFrom (k i : Nat) (items : List α) :
    (rowsFrom row k items)[i]? = items[i]?.map fun a => row a (k + i) := by
  induction items generalizing k i with
  | nil => rfl
  | cons a rest ih =>
    cases i with
    | zero => rfl
    | succ i =>
      have hsum : k + (i + 1) = k + 1 + i := by omega
      rw [rowsFrom, List.getElem?_cons_succ, List.getElem?_cons_succ, ih, hsum]

section Number

variable {number : ρ → Nat}

theorem numbers_rowsFrom (hnumber : ∀ a id, number (row a id) = id) (k : Nat) (items : List α) :
    (rowsFrom row k items).map number = List.range' k items.length := by
  induction items generalizing k with
  | nil => rfl
  | cons a rest ih =>
    simp only [rowsFrom, List.map_cons, hnumber, ih, List.length_cons, List.range'_succ]

theorem find?_of_numbers {rows : List ρ} {k : Nat}
    (h : rows.map number = List.range' k rows.length) (i : Nat) :
    rows.find? (fun r => number r == k + i) = rows[i]? := by
  induction rows generalizing k i with
  | nil => rfl
  | cons r rest ih =>
    rw [List.map_cons, List.length_cons, List.range'_succ, List.cons.injEq] at h
    obtain ⟨hr, hrest⟩ := h
    cases i with
    | zero => simp [hr]
    | succ i =>
      have hne : (number r == k + 1 + i) = false := beq_false_of_ne (by omega)
      have hsum : k + (i + 1) = k + 1 + i := by omega
      rw [hsum, List.find?_cons, hne, List.getElem?_cons_succ]
      exact ih hrest i

theorem find?_rowsFrom (hnumber : ∀ a id, number (row a id) = id) (k i : Nat) (items : List α) :
    (rowsFrom row k items).find? (fun r => number r == k + i) =
      items[i]?.map fun a => row a (k + i) := by
  have hnumbers := numbers_rowsFrom hnumber k items
  rw [← length_rowsFrom k items] at hnumbers
  rw [find?_of_numbers hnumbers, getElem?_rowsFrom]

end Number

theorem lookup_numbers [DecidableEq α] {key : α → String} {items : List α}
    (hkeys : (items.map key).Nodup) (k : Nat) {a : α} (ha : a ∈ items) :
    ((items.map key).zip (List.range' k items.length)).lookup (key a) =
      some (k + items.idxOf a) := by
  induction items generalizing k with
  | nil => cases ha
  | cons b rest ih =>
    obtain ⟨hb, hrest⟩ := List.nodup_cons.mp hkeys
    simp only [List.map_cons, List.length_cons, List.range'_succ, List.zip_cons_cons,
      List.lookup_cons]
    by_cases hab : a = b
    · subst hab
      simp
    · have ha : a ∈ rest := (List.mem_cons.mp ha).resolve_left hab
      have hne : (key a == key b) = false :=
        beq_false_of_ne fun heq => hb (heq ▸ List.mem_map_of_mem ha)
      rw [hne, List.idxOf_cons_ne rest (Ne.symm hab)]
      simp only [ih hrest (k + 1) ha]
      congr 1
      omega

theorem lookup_numbers_eq_none {key : α → String} {items : List α} (k : Nat) {text : String}
    (h : ∀ a ∈ items, key a ≠ text) :
    ((items.map key).zip (List.range' k items.length)).lookup text = none := by
  apply List.lookup_eq_none_iff.mpr
  intro pair hpair
  obtain ⟨a, ha, heq⟩ := List.mem_map.mp (List.of_mem_zip hpair).1
  exact bne_iff_ne.mpr fun htext => h a ha (heq.trans htext.symm)

variable {t : Table ρ}

theorem writeEach_ok (hnumber : ∀ a id, t.number (row a id) = id) {items : List α}
    {s s' : Session} {ids : List Nat}
    (h : (writeEach t row items).outcome s = (.ok ids, s')) :
    ids = List.range' (t.next s.tables) items.length ∧
      s.AddsTo t (rowsFrom row (t.next s.tables) items) s' := by
  induction items generalizing s ids with
  | nil =>
    cases h
    exact ⟨rfl, .nil⟩
  | cons a rest ih =>
    obtain ⟨id, s₁, henter, h⟩ := Writing.bind_ok.mp h
    obtain ⟨others, s₂, hrest, h⟩ := Writing.bind_ok.mp h
    cases h
    obtain ⟨-, rfl, hfirst⟩ := Writing.enter_ok henter
    obtain ⟨rfl, hothers⟩ := ih hrest
    rw [hfirst.next (hnumber a _)] at hothers ⊢
    exact ⟨by rw [List.length_cons, List.range'_succ], hfirst.trans hothers⟩

theorem writeEach_empty_ok (hnumber : ∀ a id, t.number (row a id) = id) {items : List α}
    {s s' : Session} (hempty : t.rows s.tables = []) {ids : List Nat}
    (h : (writeEach t row items).outcome s = (.ok ids, s')) :
    ids = List.range' 1 items.length ∧ s'.tables = t.withRows (rowsFrom row 1 items) s.tables := by
  obtain ⟨hids, hadds⟩ := writeEach_ok hnumber h
  rw [Table.next_of_empty hempty] at hids hadds
  rw [Session.AddsTo, hempty] at hadds
  exact ⟨hids, hadds⟩

theorem writeEach_succeeds {items : List α} {s : Session}
    (hthere : ∀ a ∈ items, ∀ id, ∀ other ∈ t.rows s.tables, t.clash (row a id) other = false)
    (hitems : items.Pairwise fun a b => ∀ id id', t.clash (row b id') (row a id) = false) :
    ∃ ids s', (writeEach t row items).outcome s = (.ok ids, s') := by
  induction items generalizing s with
  | nil => exact ⟨[], s, rfl⟩
  | cons a rest ih =>
    obtain ⟨ha, hrest⟩ := List.pairwise_cons.mp hitems
    obtain ⟨hfirst, hthere⟩ := List.forall_mem_cons.mp hthere
    obtain ⟨s₁, henter, hadds⟩ := Writing.enter_succeeds t (row a) s (hfirst _)
    have hno : ∀ b ∈ rest, ∀ id, ∀ other ∈ t.rows s₁.tables, t.clash (row b id) other = false := by
      intro b hb id other hother
      rw [hadds.rows, List.mem_append, List.mem_singleton] at hother
      rcases hother with hother | rfl
      · exact hthere b hb id other hother
      · exact ha b hb _ id
    obtain ⟨ids, s', hids⟩ := ih hno hrest
    refine ⟨t.next s.tables :: ids, s', ?_⟩
    rw [writeEach, Writing.outcome_bind, henter]
    simp only [Writing.outcome_bind, hids, Writing.outcome_pure]

theorem keepsSaved_writeEach (items : List α) : Writing.KeepsSaved (writeEach t row items) := by
  induction items with
  | nil => exact .pure []
  | cons a rest ih => exact (Writing.KeepsSaved.enter t _).bind fun _ => ih.bind fun _ => .pure _

end SiteVisit.Store
