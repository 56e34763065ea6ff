import SiteVisit.Proofs.Documents.Schedule
import SiteVisit.Proofs.Store.Reported
import SiteVisit.Proofs.Store.RoleText

/-!
The annotation of a meeting in documents and in stores. Its markup is shown and stored as a whole or
not at all: if any part of it cannot be interpreted, the plain annotation stands in its place.
-/

namespace SiteVisit

open Calendar (Timezones)
open Markup.Xml (IsLegal)
open Text (OnlyOf)

namespace Meeting

variable {m : Meeting}

def IsFormatted (m : Meeting) : Prop :=
  ∃ markup runs, m.rolesMarkup = some markup ∧ markup ≠ "" ∧ Markup.readRuns markup = .ok runs

theorem filter_rolesMarkup_eq_some {markup : String} :
    m.rolesMarkup.filter (!·.isEmpty) = some markup ↔ m.rolesMarkup = some markup ∧ markup ≠ "" := by
  simp [Option.filter_eq_some_iff]

theorem filter_rolesMarkup_eq_none (h : m.rolesMarkup = none ∨ m.rolesMarkup = some "") :
    m.rolesMarkup.filter (!·.isEmpty) = none := by
  rcases h with h | h <;> rw [h] <;> rfl

theorem intercalate_roleLabels_ne (h : m.roles ≠ []) : ", ".intercalate m.roleLabels ≠ "" := by
  obtain ⟨r, rest, h⟩ := List.exists_cons_of_ne_nil h
  have hlabel : r.label ≠ "" := by cases r <;> decide
  rw [roleLabels, h, List.map_cons]
  cases rest with
  | nil => simpa using hlabel
  | cons next rest =>
    rw [List.map_cons, String.intercalate_cons_cons]
    simp [hlabel]

end Meeting

structure IsPlainCell (m : Meeting) (cell : List Documents.Run) : Prop where
  text : m.rolesText ≠ "" → cell = [Documents.shownRun m.rolesText]
  labels : m.rolesText = "" → m.roles ≠ [] →
    cell = [Documents.shownRun (", ".intercalate m.roleLabels)]
  nothing : m.rolesText = "" → m.roles = [] → cell = []

structure IsPlainStored (m : Meeting) (stored : List RoleRun) : Prop where
  text : m.rolesText ≠ "" → stored = [{ text := m.rolesText }]
  nothing : m.rolesText = "" → stored = []

/-- The annotation of a meeting as it stands in a cell and in a store, with the reports of both. -/
structure Annotates (m : Meeting) (cell : List Documents.Run) (shown : List Message)
    (stored : List RoleRun) (kept : List Message) : Prop where
  formatted : ∀ markup runs, m.rolesMarkup = some markup → markup ≠ "" →
    Markup.readRuns markup = .ok runs →
    cell = runs.map Documents.Summary.shownFormatted ∧
      stored = runs.map (fun r => { text := r.text, style := some r.style }) ∧
      shown = [] ∧ kept = []
  faulty : ∀ markup p, m.rolesMarkup = some markup → markup ≠ "" →
    Markup.readRuns markup = .error p →
    IsPlainCell m cell ∧ IsPlainStored m stored ∧
      shown =
        [⟨.warn, "team roles for " ++ Text.quoted m.name ++ " shown unformatted: " ++ p.message⟩] ∧
      kept =
        [⟨.warn, "team roles for " ++ Text.quoted m.name ++ " stored unformatted: " ++ p.message⟩]
  plain : m.rolesMarkup = none ∨ m.rolesMarkup = some "" →
    IsPlainCell m cell ∧ IsPlainStored m stored ∧ shown = [] ∧ kept = []

def isRolesWarning (m : Message) : Bool :=
  m.severity == .warn && "team roles for ".toList.isPrefixOf m.text.toList

theorem isRolesWarning_mk (name how why : String) :
    isRolesWarning ⟨.warn, "team roles for " ++ name ++ how ++ why⟩ = true := by
  rw [isRolesWarning, String.append_assoc, String.append_assoc, String.toList_append,
    Bool.and_eq_true]
  exact ⟨rfl, List.isPrefixOf_iff_prefix.mpr (List.prefix_append _ _)⟩

namespace Documents

namespace Summary

variable {v : Visit} {m : Meeting}

theorem isPlainCell (m : Meeting) : IsPlainCell m (shownRuns (plainRoles m)) where
  text h := by simp [shownRuns, plainRoles, h]
  labels h hroles := by
    simp [shownRuns, plainRoles, h, Meeting.intercalate_roleLabels_ne hroles]
  nothing h hroles := by simp [shownRuns, plainRoles, h, Meeting.roleLabels, hroles]

theorem rolesRuns_outcome (h : m.IsFormatted ∨ OnlyOf IsLegal m.rolesText)
    (before : List Message) :
    (rolesRuns m).outcome before = (.ok (shownRoles m), before ++ rolesReports m) := by
  have hsucceeds : (rolesRuns m).Succeeds := by
    rcases h with ⟨markup, runs, hmarkup, hne, hruns⟩ | h
    · have hfilter := Meeting.filter_rolesMarkup_eq_some.mpr ⟨hmarkup, hne⟩
      simp only [rolesRuns, hfilter, hruns]
      exact mapM_formattedRun_succeeds hruns
    · exact rolesRuns_succeeds h
  obtain ⟨runs, after, hok, -⟩ := hsucceeds before
  obtain ⟨rfl, rfl⟩ := rolesRuns_gives m before runs after hok
  exact hok

theorem not_isEmpty_of_illegal {s : String} (h : ¬ OnlyOf IsLegal s) : ¬ s.isEmpty = true := by
  intro hempty
  rw [String.isEmpty_iff.mp hempty] at h
  exact h .empty

theorem runsIfAny_outcome_of_illegal {s : String} (h : ¬ OnlyOf IsLegal s)
    (before : List Message) :
    (runsIfAny s).outcome before = (.error (.defect .unwritable), before) := by
  rw [runsIfAny, if_neg (not_isEmpty_of_illegal h), textRun, writable,
    if_neg (mt isWritable_iff.mp h)]
  rfl

theorem rolesRuns_outcome_of_illegal (hformatted : ¬ m.IsFormatted)
    (h : ¬ OnlyOf IsLegal m.rolesText) (before : List Message) :
    (rolesRuns m).outcome before = (.error (.defect .unwritable), before ++ rolesReports m) := by
  have hplain : plainRoles m = m.rolesText := if_neg (not_isEmpty_of_illegal h)
  cases hmarkup : m.rolesMarkup.filter (!·.isEmpty) with
  | none =>
    simp only [rolesRuns, rolesReports, hmarkup, hplain, List.append_nil]
    exact runsIfAny_outcome_of_illegal h before
  | some markup =>
    cases hread : Markup.readRuns markup with
    | ok runs =>
      obtain ⟨hsome, hne⟩ := Meeting.filter_rolesMarkup_eq_some.mp hmarkup
      exact (hformatted ⟨markup, runs, hsome, hne, hread⟩).elim
    | error p =>
      simp only [rolesRuns, rolesReports, hmarkup, hread, hplain, Reporting.outcome_bind]
      exact runsIfAny_outcome_of_illegal h _

def roleCell (m : Meeting) : Cell := plainCell 2520 { runs := shownRoles m }

/-- The last cells of the rows with four, but for the heads that are repeated on each page. -/
def rolesOfRows (rows : List Row) : List Cell := (rows.filter (!·.repeated)).filterMap (·.cells[3]?)

def roleCells (body : List Block) : List Cell :=
  body.flatMap fun
    | .table t => rolesOfRows t.rows
    | .paragraph _ => []

theorem rolesOfRows_shownSlot (isFirst : Bool) (slot : List Meeting) :
    rolesOfRows (shownSlot v true isFirst slot) = slot.map roleCell := by
  induction slot generalizing isFirst with
  | nil => rfl
  | cons m rest ih =>
    rw [List.map_cons, ← ih false]
    rfl

theorem rolesOfRows_shownTable (date : String) (slots : List (String × List Meeting)) :
    rolesOfRows (shownTable v true date slots).rows = (slots.flatMap (·.2)).map roleCell := by
  have hheads (rest : List Row) :
      rolesOfRows ({ shownSpanningRow (widths true) date with repeated := true } ::
        { shownHeaderRow (widths true) (labels true) with repeated := true } :: rest) =
        rolesOfRows rest := rfl
  rw [shownTable, hheads, rolesOfRows, List.filter_flatMap, List.filterMap_flatMap, List.map_flatMap]
  exact List.flatMap_congr fun slot _ => rolesOfRows_shownSlot true slot.2

theorem flatMap_intercalate {α β : Type} {f : α → List β} {sep : List α} (hsep : sep.flatMap f = [])
    (parts : List (List α)) :
    (sep.intercalate parts).flatMap f = parts.flatMap fun part => part.flatMap f := by
  induction parts with
  | nil => rfl
  | cons part rest ih =>
    cases rest with
    | nil => simp
    | cons next rest =>
      rw [List.intercalate_cons_cons, List.flatMap_append, List.flatMap_append, hsep,
        List.append_nil, ih]
      rfl

def inOrder (v : Visit) : List Meeting := (slotsByDay v).flatMap fun day => day.2.flatMap (·.2)

theorem roleCells_body :
    roleCells ([Block.paragraph {}].intercalate ((slotsByDay v).map fun (date, slots) =>
      [.table (shownTable v true date slots)])) = (inOrder v).map roleCell := by
  rw [roleCells, flatMap_intercalate rfl, List.flatMap_map, inOrder, List.map_flatMap]
  refine List.flatMap_congr fun day _ => ?_
  rw [List.flatMap_singleton]
  exact rolesOfRows_shownTable day.1 day.2

theorem filter_rolesReports (m : Meeting) :
    (rolesReports m).filter isRolesWarning = rolesReports m := by
  rw [rolesReports]
  split
  · rfl
  · split
    · rfl
    · simp [isRolesWarning_mk]

theorem filter_reports_withRoles (m : Meeting) :
    (reports v true m).filter isRolesWarning = rolesReports m := by
  have hrooms : (linklessIf v m m.showsZoom).filter isRolesWarning = [] := by
    rw [linklessIf]
    split
    · simp [isRolesWarning, linkless, String.toList_append]
    · rfl
  rw [reports, List.filter_append, hrooms, if_pos rfl, filter_rolesReports, List.nil_append]

end Summary
end Documents

namespace Store

variable {m : Meeting}

def storedRoles (m : Meeting) : List RoleRun := (keptRuns m).getD []

theorem isPlainStored (m : Meeting) : IsPlainStored m ((plainRoles m).getD []) where
  text h := by simp [plainRoles, h]
  nothing h := by simp [plainRoles, h]

theorem bind_decode?_encode (runs : Option (List RoleRun)) :
    (runs.map RoleRun.encode).bind RoleRun.decode? = runs := by
  cases runs with
  | none => rfl
  | some runs => exact RoleRun.decode?_encode runs

theorem IsRowOf.roleRuns {zones : Timezones} {zone : String} {rooms : Numbers} {row : MeetingRow}
    (h : IsRowOf zones zone rooms m row) (s : Store) : (s.detailOf row).roleRuns = storedRoles m := by
  rw [Detail.roleRuns, detailOf, h.roles, bind_decode?_encode, storedRoles]

theorem filter_roleReports (m : Meeting) :
    (roleReports m).filter isRolesWarning = roleReports m := by
  rw [roleReports]
  split
  · rfl
  · split
    · rfl
    · simp [isRolesWarning_mk]

theorem filter_meeting_reports (v : Visit) (m : Meeting) :
    (roleReports m ++ v.missingReports m).filter isRolesWarning = roleReports m := by
  rw [List.filter_append, filter_roleReports, List.append_right_eq_self]
  exact List.filter_eq_nil_iff.mpr (List.forall_mem_map.mpr fun _ _ => Bool.false_ne_true)

end Store

theorem annotates (m : Meeting) : Annotates m (Documents.Summary.shownRoles m)
    (Documents.Summary.rolesReports m) (Store.storedRoles m) (Store.roleReports m) where
  formatted markup runs hmarkup hne hread := by
    have hfilter := Meeting.filter_rolesMarkup_eq_some.mpr ⟨hmarkup, hne⟩
    simp only [Documents.Summary.shownRoles, Documents.Summary.rolesReports, Store.storedRoles,
      Store.keptRuns, Store.roleReports, hfilter, hread, Option.getD_some, and_self]
  faulty markup p hmarkup hne hread := by
    have hfilter := Meeting.filter_rolesMarkup_eq_some.mpr ⟨hmarkup, hne⟩
    simp only [Documents.Summary.shownRoles, Documents.Summary.rolesReports, Store.storedRoles,
      Store.keptRuns, Store.roleReports, hfilter, hread, and_true]
    exact ⟨Documents.Summary.isPlainCell m, Store.isPlainStored m⟩
  plain h := by
    have hfilter := Meeting.filter_rolesMarkup_eq_none h
    simp only [Documents.Summary.shownRoles, Documents.Summary.rolesReports, Store.storedRoles,
      Store.keptRuns, Store.roleReports, hfilter, and_true]
    exact ⟨Documents.Summary.isPlainCell m, Store.isPlainStored m⟩

open Documents (Showable)
open Documents.Summary (inOrder roleCell roleCells rolesReports rolesRuns shownRoles)
open Store (roleReports roleText storedRoles)

/-- The annotation of every meeting is formatted as a whole, in the documents and in the stores
alike, or it is plain in both. What cannot be interpreted is reported once by each of them. The only
annotation that cannot be shown is a plain one with a character that documents have not. -/
theorem annotations_agree (v : Visit) :
    (∀ m, Annotates m (shownRoles m) (rolesReports m) (storedRoles m) (roleReports m)) ∧
    (∀ m before,
      (m.IsFormatted ∨ OnlyOf IsLegal m.rolesText →
        (rolesRuns m).outcome before = (.ok (shownRoles m), before ++ rolesReports m)) ∧
      (¬ m.IsFormatted → ¬ OnlyOf IsLegal m.rolesText →
        (rolesRuns m).outcome before = (.error (.defect .unwritable), before ++ rolesReports m)) ∧
      ∃ text, (roleText m).outcome before = (.ok text, before ++ roleReports m) ∧
        (text.bind RoleRun.decode?).getD [] = storedRoles m) ∧
    (inOrder v).Perm v.meetings ∧
    (∀ settings, Documents.Writes (Documents.Summary.generate true v settings)
      (¬ (Showable v ∧ settings.TextsOf IsLegal))
      (fun body said => roleCells body = (inOrder v).map roleCell ∧
        said.filter isRolesWarning = (inOrder v).flatMap rolesReports)) ∧
    (∀ (zones : Timezones) (zone path : String) (earlier s stored : Store)
      (before reported : List Message),
      Store.populateOver earlier path v zone before zones = (.ok s, reported, stored) →
      (∃ said, reported = before ++ said ∧
        said.filter isRolesWarning = v.meetings.flatMap roleReports) ∧
      ∀ (i : Nat) (m : Meeting), v.meetings[i]? = some m → Store.isRowNumber (i + 1) = true →
        ∃ d, s.detail? (i + 1) = .ok (some d) ∧ d.roleRuns = storedRoles m) ∧
    ∀ (w : Workbook) (o : LoadOptions) (before after : List Message),
      (Visit.load w o).outcome before = (.ok v, after) →
      ∀ m ∈ v.meetings, Text.trim m.rolesText = m.rolesText := by
  refine ⟨annotates, fun m before => ⟨fun h => ?_, fun h hillegal => ?_, ?_⟩,
    Documents.perm_slotsByDay v, fun settings => ?_, ?_, ?_⟩
  · exact Documents.Summary.rolesRuns_outcome h before
  · exact Documents.Summary.rolesRuns_outcome_of_illegal h hillegal before
  · refine ⟨_, Store.roleText_outcome m before, ?_⟩
    rw [Store.bind_decode?_encode, storedRoles]
  · refine Documents.writes_of_gives (Documents.Summary.generate_gives true v settings)
      (fun h => ?_) ⟨Documents.Summary.roleCells_body, ?_⟩
    · obtain ⟨hv, hsettings⟩ := not_not.mp h
      exact Documents.Summary.generate_succeeds hv hsettings true
    · simp only [List.filter_flatMap, Documents.Summary.filter_reports_withRoles, inOrder,
        List.flatMap_assoc]
  · intro zones zone path earlier s stored before reported hstored
    have hids := Store.nodup_ids_of_populateOver hstored
    obtain ⟨hholds, -, -⟩ := Store.populateOver_ok hids hstored
    constructor
    · obtain ⟨size, hsaid⟩ := Store.said_populateOver hids hstored
      refine ⟨_, hsaid, ?_⟩
      rw [List.filter_append, List.filter_flatMap]
      simp only [Store.filter_meeting_reports]
      exact List.append_nil _
    · intro i m hm hid
      obtain ⟨row, -, -, hrow, hdetail⟩ := hholds.exists_detail hm hid
      exact ⟨s.detailOf row, hdetail, hrow.roleRuns s⟩
  · intro w o before after hload
    obtain ⟨_, _, _, -, -, -, hdrafted, -⟩ := Visit.sheets_of_read (Visit.load_eq_ok hload)
    exact fun m hm => (hdrafted.trim_texts m hm).2

def notes : Visit where
  meetings := [
    { name := "Opening", date := "Monday", time := "9 a.m.", location := "", zoomRoom := ""
      rolesText := "Chair: Zo\u00eb"
      rolesMarkup := some "<r><rPr><b /></rPr><t>Chair: </t></r><r><t>Zo\u00eb</t></r>" },
    { name := "Tour", date := "Monday", time := "9 a.m.", location := "", zoomRoom := ""
      rolesText := "Ann, Bo", rolesMarkup := some "<r><t>Ann</t></r><r><t>, </t><x>Bo</x></r>" },
    { name := "Lunch", date := "Monday", time := "9 a.m.", location := "", zoomRoom := ""
      roles := [.chair, .standard1], rolesMarkup := some "" }]

theorem showable_notes : Showable notes where
  participants := List.forall_mem_nil _
  meetings := by
    have hlegal : ∀ m ∈ notes.meetings, ∀ text ∈ [m.name, m.date, m.time, m.location, m.zoomRoom,
        m.rolesText], OnlyOf IsLegal text := by decide +kernel
    intro m hm
    simp only [List.forall_mem_cons] at hlegal
    obtain ⟨hname, hdate, htime, hlocation, hroom, htext, -⟩ := hlegal m hm
    exact ⟨hname, hdate, htime, hlocation, hroom, htext⟩
  zoomRooms := List.forall_mem_nil _
  known := by
    have hnone : ∀ m ∈ notes.meetings, m.showsZoom = false := by decide
    intro m hm hshown
    rw [hnone m hm] at hshown
    cases hshown

theorem notes_legal : Showable notes ∧ DocumentSettings.TextsOf IsLegal {} :=
  ⟨showable_notes, Documents.crossBook_legal.2⟩

theorem annotations_agree_notes :
    (∃ d said, (Documents.Summary.generate true notes {}).outcome [] = (.ok d, said) ∧
      (roleCells d.body).map (·.paragraphs.flatMap (·.runs)) =
        [[{ text := "Chair: ", bold := some true }, { text := "Zo\u00eb" }], [{ text := "Ann, Bo" }],
          [{ text := "Team Chair, SI" }]] ∧
      said.filter isRolesWarning =
        [⟨.warn, "team roles for 'Tour' shown unformatted: unexpected tag <x> in run"⟩]) ∧
    ∃ s reported stored d d',
      Store.populateOver {} "visit.db" notes "UTC" [] = (.ok s, reported, stored) ∧
      s.detail? 1 = .ok (some d) ∧
      d.roleRuns = [⟨"Chair: ", some { bold := true }⟩, ⟨"Zo\u00eb", some {}⟩] ∧
      s.detail? 2 = .ok (some d') ∧ d'.roleRuns = [⟨"Ann, Bo", none⟩] ∧
      reported.filter isRolesWarning =
        [⟨.warn, "team roles for 'Tour' stored unformatted: unexpected tag <x> in run"⟩] := by
  obtain ⟨-, -, -, hdocument, hstore, -⟩ := annotations_agree notes
  constructor
  · obtain ⟨d, said, hd, hcells, hwarnings⟩ :=
      (hdocument _).exists_ok (not_not.mpr notes_legal) []
    refine ⟨d, said, hd, ?_, hwarnings.trans (by decide +kernel)⟩
    rw [hcells]
    decide +kernel
  · obtain ⟨s, hs⟩ := Option.isSome_iff_exists.mp (show (Store.populateOver {} "visit.db" notes "UTC"
      []).1.toOption.isSome = true by decide +kernel)
    obtain ⟨⟨reported, stored⟩, hstored⟩ := exists_outcome_of_toOption hs
    obtain ⟨⟨said, hsaid, hwarnings⟩, hdetails⟩ := hstore _ _ _ _ _ _ _ _ hstored
    obtain ⟨d, hd, hruns⟩ := hdetails 0 _ rfl (by decide)
    obtain ⟨d', hd', hruns'⟩ := hdetails 1 _ rfl (by decide)
    rw [List.nil_append] at hsaid
    rw [← hsaid] at hwarnings
    refine ⟨s, reported, stored, d, d', hstored, hd, hruns.trans ?_, hd', hruns'.trans ?_,
      hwarnings.trans ?_⟩
    · decide +kernel
    · decide +kernel
    · decide +kernel

def blankNote : Meeting where
  name := "Tour"
  date := "Monday"
  time := ""
  location := ""
  zoomRoom := ""
  roles := [.chair]
  rolesText := " "

def controlNote : Meeting := { blankNote with rolesText := "\x01" }

/-- A blank stands where the labels of the roles or nothing would; and a control character ends the
document. -/
theorem blank_annotation_stands :
    (Text.trim blankNote.rolesText = "" ∧
      (rolesRuns blankNote).outcome [] = (.ok [Documents.shownRun " "], []) ∧
      [Documents.shownRun " "] ≠ [Documents.shownRun (", ".intercalate blankNote.roleLabels)] ∧
      storedRoles blankNote = [⟨" ", none⟩]) ∧
    (rolesRuns controlNote).outcome [] = (.error (.defect .unwritable), []) := by
  refine ⟨⟨by decide, ?_, by decide, rfl⟩, ?_⟩
  · exact Documents.Summary.rolesRuns_outcome (.inr (by decide +kernel)) []
  · refine Documents.Summary.rolesRuns_outcome_of_illegal ?_ (by decide +kernel) []
    rintro ⟨_, _, hmarkup, -⟩
    cases hmarkup

end SiteVisit
