import Mathlib.Data.List.Chain
import SiteVisit.Proofs.Documents.Schedule

namespace SiteVisit.Documents.Summary

open Markup.Xml (IsLegal)

def slots (v : Visit) (date : String) : List (String × List Meeting) :=
  grouping (·.time) (v.meetings.filter (·.date == date))

section Shown

def timeRuns (row : Row) : List Run :=
  row.cells.head?.toList.flatMap fun cell => cell.paragraphs.flatMap (·.runs)

def Hides (edge : String) (row : Row) : Prop :=
  ∃ cell ∈ row.cells.head?, ∃ b ∈ cell.borders, b.edge = edge ∧ b.line = "nil"

def IsKept (row : Row) : Prop := ∃ cell ∈ row.cells, ∃ p ∈ cell.paragraphs, p.keepWithNext = true

variable {withRoles isFirst isLast : Bool} {e : Entry} {roles : List Run}

theorem timeRuns_shownRow : timeRuns (shownRow withRoles isFirst isLast e roles) =
    if isFirst then broken e.time else [] := by
  cases isFirst <;> simp [timeRuns, shownRow, shownTimeCell, plainCell, broken]

theorem hides_top_shownRow :
    Hides "top" (shownRow withRoles isFirst isLast e roles) ↔ isFirst = false := by
  cases isFirst <;> cases isLast <;> simp [Hides, shownRow, hiddenEdges]

theorem hides_bottom_shownRow :
    Hides "bottom" (shownRow withRoles isFirst isLast e roles) ↔ isLast = false := by
  cases isFirst <;> cases isLast <;> simp [Hides, shownRow, hiddenEdges]

theorem isKept_shownRow :
    IsKept (shownRow withRoles isFirst isLast e roles) ↔ isLast = false := by
  cases withRoles <;>
    simp [IsKept, shownRow, shownTimeCell, shownCell, shownLocationCell, plainCell]

end Shown

section Placed

variable {v : Visit} {withRoles isFirst : Bool} {meetings : List Meeting} {time : String}
  {p : Meeting × Row}

def placed (v : Visit) (withRoles isFirst : Bool) : List Meeting → List (Meeting × Row)
  | [] => []
  | m :: rest =>
    (m, shownRow withRoles isFirst rest.isEmpty (entry v m m.showsZoom) (shownRoles m)) ::
      placed v withRoles false rest

theorem map_fst_placed (v : Visit) (withRoles isFirst : Bool) (meetings : List Meeting) :
    (placed v withRoles isFirst meetings).map (·.1) = meetings := by
  induction meetings generalizing isFirst with
  | nil => rfl
  | cons m rest ih => rw [placed, List.map_cons, ih]

theorem map_snd_placed (v : Visit) (withRoles isFirst : Bool) (meetings : List Meeting) :
    (placed v withRoles isFirst meetings).map (·.2) = shownSlot v withRoles isFirst meetings := by
  induction meetings generalizing isFirst with
  | nil => rfl
  | cons m rest ih => rw [placed, List.map_cons, ih, shownSlot]

structure ShowsMeeting (v : Visit) (withRoles : Bool) (m : Meeting) (row : Row) : Prop where
  cells : row.cells.tail = [shownCell ((widths withRoles).getD 1 0) (breakLines m.name),
      shownLocationCell ((widths withRoles).getD 2 0) (entry v m m.showsZoom)] ++
    if withRoles then [plainCell ((widths withRoles).getD 3 0) { runs := shownRoles m }] else []
  notRepeated : row.repeated = false

theorem mem_placed (h : p ∈ placed v withRoles isFirst meetings) :
    p.1 ∈ meetings ∧ ShowsMeeting v withRoles p.1 p.2 := by
  induction meetings generalizing isFirst with
  | nil => cases h
  | cons m rest ih =>
    rcases List.mem_cons.mp h with rfl | h
    · exact ⟨List.mem_cons_self, rfl, rfl⟩
    · exact ⟨List.mem_cons_of_mem _ (ih h).1, (ih h).2⟩

theorem timeRuns_placed (hne : meetings ≠ []) (htime : ∀ m ∈ meetings, m.time = time) :
    (placed v withRoles true meetings).map (timeRuns ·.2) =
      shownRuns time :: List.replicate (meetings.length - 1) [] := by
  have hrest (rest : List Meeting) : (placed v withRoles false rest).map (timeRuns ·.2) =
      List.replicate rest.length [] := by
    induction rest with
    | nil => rfl
    | cons m rest ih =>
      rw [placed, List.map_cons, ih, timeRuns_shownRow, List.length_cons, List.replicate_succ]
      rfl
  obtain ⟨m, rest, rfl⟩ := List.exists_cons_of_ne_nil hne
  rw [placed, List.map_cons, hrest, timeRuns_shownRow, if_pos rfl, entry, broken_breakLines,
    htime m List.mem_cons_self, List.length_cons, Nat.add_sub_cancel]

structure Joins (p q : Meeting × Row) : Prop where
  bottom : Hides "bottom" p.2 ↔ p.1.time = q.1.time
  top : Hides "top" q.2 ↔ p.1.time = q.1.time
  kept : IsKept p.2 ↔ p.1.time = q.1.time

theorem placed_isChain (htime : ∀ m ∈ meetings, m.time = time) :
    (placed v withRoles isFirst meetings).IsChain Joins := by
  induction meetings generalizing isFirst with
  | nil => exact .nil
  | cons m rest ih =>
    obtain ⟨hm, hrest⟩ := List.forall_mem_cons.mp htime
    rw [placed, List.isChain_cons]
    refine ⟨fun q hq => ?_, ih hrest⟩
    cases rest with
    | nil => cases hq
    | cons m' rest =>
      obtain rfl := Option.some.inj hq
      have hsame : m.time = m'.time := hm.trans (hrest m' List.mem_cons_self).symm
      exact ⟨by simp [hides_bottom_shownRow, hsame], by simp [hides_top_shownRow, hsame],
        by simp [isKept_shownRow, hsame]⟩

theorem head_placed (h : p ∈ (placed v withRoles true meetings).head?) : ¬ Hides "top" p.2 := by
  cases meetings with
  | nil => cases h
  | cons m rest =>
    obtain rfl := Option.some.inj h
    simp [hides_top_shownRow]

theorem getLast_placed (h : p ∈ (placed v withRoles isFirst meetings).getLast?) :
    ¬ Hides "bottom" p.2 ∧ ¬ IsKept p.2 := by
  induction meetings generalizing isFirst with
  | nil => cases h
  | cons m rest ih =>
    cases rest with
    | nil =>
      obtain rfl : (m, shownRow withRoles isFirst true (entry v m m.showsZoom) (shownRoles m)) =
        p := Option.some.inj h
      simp [hides_bottom_shownRow, isKept_shownRow]
    | cons m' rest =>
      have hrest : p ∈ (placed v withRoles false (m' :: rest)).getLast? := by
        simpa [placed] using h
      exact ih hrest

end Placed

section Day

variable {v : Visit} {withRoles : Bool} {date : String}

def placedDay (v : Visit) (withRoles : Bool) (date : String) : List (Meeting × Row) :=
  (slots v date).flatMap fun slot => placed v withRoles true slot.2

theorem mem_slots {slot : String × List Meeting} (h : slot ∈ slots v date) :
    slot.2 ≠ [] ∧ ∀ m ∈ slot.2, m.time = slot.1 := by
  obtain ⟨hne, hmembers⟩ := members_of_mem_grouping h
  exact ⟨hne, fun m hm => (hmembers m hm).2⟩

theorem pairwise_slots (v : Visit) (date : String) :
    (slots v date).Pairwise fun slot next => slot.1 ≠ next.1 :=
  List.pairwise_map.mp (nodup_grouping _ _)

theorem placedDay_isChain : (placedDay v withRoles date).IsChain Joins := by
  have hne : [] ∉ (slots v date).map fun slot => placed v withRoles true slot.2 := by
    rintro hmem
    obtain ⟨slot, hslot, hnil⟩ := List.mem_map.mp hmem
    exact (mem_slots hslot).1 (by rw [← map_fst_placed v withRoles true slot.2, hnil, List.map_nil])
  rw [placedDay, List.flatMap_def, List.isChain_flatten hne]
  constructor
  · exact List.forall_mem_map.mpr fun slot hslot => placed_isChain (mem_slots hslot).2
  · -- The last row of a slot is not joined to the first row of the next one.
    rw [List.isChain_map]
    refine ((pairwise_slots v date).imp_of_mem fun hslot hnext hne p hp q hq => ?_).isChain
    obtain ⟨hbottom, hkept⟩ := getLast_placed hp
    have htop := head_placed hq
    have hother : p.1.time ≠ q.1.time := by
      rw [(mem_slots hslot).2 _ (mem_placed (List.mem_of_mem_getLast? hp)).1,
        (mem_slots hnext).2 _ (mem_placed (List.mem_of_mem_head? hq)).1]
      exact hne
    exact ⟨iff_of_false hbottom hother, iff_of_false htop hother, iff_of_false hkept hother⟩

theorem head_placedDay {p : Meeting × Row} (h : p ∈ (placedDay v withRoles date).head?) :
    ¬ Hides "top" p.2 := by
  rw [placedDay, List.head?_flatMap] at h
  obtain ⟨slot, -, hp⟩ := List.exists_of_findSome?_eq_some h
  exact head_placed hp

theorem getLast_placedDay {p : Meeting × Row} (h : p ∈ (placedDay v withRoles date).getLast?) :
    ¬ Hides "bottom" p.2 := by
  rw [placedDay, List.getLast?_flatMap] at h
  obtain ⟨slot, -, hp⟩ := List.exists_of_findSome?_eq_some h
  exact (getLast_placed hp).1

/-- The table of a date has two rows that are repeated on every page, and below them the rows of the
meetings by time. -/
structure ShowsDay (v : Visit) (withRoles : Bool) (date : String) (head labels : Row)
    (shown : List (Meeting × Row)) : Prop where
  dated : head.cells.flatMap (·.paragraphs.flatMap (·.runs)) = [shownBold date]
  repeated : head.repeated = true ∧ labels.repeated = true
  all : (shown.map (·.1)).Perm (v.meetings.filter (·.date == date))
  byTime : shown.map (·.1) = (slots v date).flatMap (·.2)
  rows : ∀ p ∈ shown, ShowsMeeting v withRoles p.1 p.2
  times : shown.map (timeRuns ·.2) = (slots v date).flatMap fun (time, slot) =>
    shownRuns time :: List.replicate (slot.length - 1) []
  joined : shown.IsChain Joins
  first : ∀ p ∈ shown.head?, ¬ Hides "top" p.2
  last : ∀ p ∈ shown.getLast?, ¬ Hides "bottom" p.2

theorem showsDay_placedDay (v : Visit) (withRoles : Bool) (date : String) :
    ShowsDay v withRoles date { shownSpanningRow (widths withRoles) date with repeated := true }
      { shownHeaderRow (widths withRoles) (labels withRoles) with repeated := true }
      (placedDay v withRoles date) := by
  have hmeetings : (placedDay v withRoles date).map (·.1) = (slots v date).flatMap (·.2) := by
    simp only [placedDay, List.map_flatMap, map_fst_placed]
  refine ⟨rfl, ⟨rfl, rfl⟩, ?_, hmeetings, fun p hp => ?_, ?_, placedDay_isChain,
    fun p => head_placedDay, fun p => getLast_placedDay⟩
  · rw [hmeetings]
    exact perm_grouping _
  · obtain ⟨slot, -, hp⟩ := List.mem_flatMap.mp hp
    exact (mem_placed hp).2
  · rw [placedDay, List.map_flatMap]
    exact List.flatMap_congr fun slot hslot =>
      timeRuns_placed (mem_slots hslot).1 (mem_slots hslot).2

end Day

theorem shownTable_rows (v : Visit) (withRoles : Bool) (date : String) :
    (shownTable v withRoles date (slots v date)).rows =
      { shownSpanningRow (widths withRoles) date with repeated := true } ::
      { shownHeaderRow (widths withRoles) (labels withRoles) with repeated := true } ::
      (placedDay v withRoles date).map (·.2) := by
  simp only [shownTable, placedDay, List.map_flatMap, map_snd_placed]

/-- A summary has a table for each date in the order in which they are first seen, with the meetings
of this date by time, and it is written unless a room or a character is missing. -/
theorem generate_slots (withRoles : Bool) (v : Visit) (settings : DocumentSettings) :
    Writes (generate withRoles v settings) (¬ (Showable v ∧ settings.TextsOf IsLegal))
      fun body _ => ∃ tables : List Table,
        body = [Block.paragraph {}].intercalate (tables.map fun t => [.table t]) ∧
        List.Forall₂ (fun date t => ∃ head labels shown,
          t.rows = head :: labels :: shown.map (·.2) ∧ ShowsDay v withRoles date head labels shown)
          (v.meetings.map (·.date)).eraseDups tables := by
  refine writes_of_gives (generate_gives withRoles v settings) (fun hno => ?_) ?_
  · obtain ⟨hv, hsettings⟩ := not_not.mp hno
    exact generate_succeeds hv hsettings withRoles
  · refine ⟨(slotsByDay v).map fun day => shownTable v withRoles day.1 day.2, ?_, ?_⟩
    · rw [List.map_map]
      rfl
    · rw [slotsByDay, grouping, List.map_map, List.map_map, List.forall₂_map_right_iff,
        List.forall₂_same]
      intro date _
      exact ⟨_, _, _, shownTable_rows v withRoles date, showsDay_placedDay v withRoles date⟩

end SiteVisit.Documents.Summary
