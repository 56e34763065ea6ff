import Mathlib.Logic.Equiv.Basic
import SiteVisit.Proofs.Visit.Columns
import SiteVisit.Proofs.Visit.Usable

namespace SiteVisit

namespace Sheet

/-- No two columns have the same label, but for those without any. -/
def HasDistinctLabels (s : Sheet) (header : Nat) : Prop :=
  ∀ c d, s.label header c ≠ "" → s.label header c = s.label header d → c = d

theorem hasDistinctLabels_iff {s : Sheet} {header : Nat} : s.HasDistinctLabels header ↔
    ∀ c < s.width, ∀ d < s.width,
      s.label header c ≠ "" → s.label header c = s.label header d → c = d := by
  refine ⟨fun h c _ d _ => h c d, fun h c d hc heq => ?_⟩
  exact h c (lt_width_of_label hc) d (lt_width_of_label (heq ▸ hc)) hc heq

instance (s : Sheet) (header : Nat) : Decidable (s.HasDistinctLabels header) :=
  decidable_of_iff _ hasDistinctLabels_iff.symm

/-- A sheet with the columns of another one in other places, and with further columns that have none
of the headers that are asked for. -/
structure Rearranged (header : Nat) (place : Nat → Nat) (s t : Sheet) : Prop
    extends s.Includes header place t where
  further : ∀ d, (∀ column, place column ≠ d) → t.label header d ∉ knownHeaders ∧
    ¬ "Zoom Link".toList <+: (t.label header d).toList

theorem Rearranged.standsIn {header : Nat} {place : Nat → Nat} {s t : Sheet}
    (h : s.Rearranged header place t) (hlabels : s.HasDistinctLabels header) :
    s.StandsIn header place t where
  toIncludes := h.toIncludes
  found name hname column hcolumn := by
    have hlabel : t.label header (place column) = name := (h.label column).trans hcolumn.label_eq
    refine ⟨hlabel, fun d hd heq => ?_⟩
    by_cases hplace : ∃ c, place c = d
    · obtain ⟨c, rfl⟩ := hplace
      rw [h.label] at heq
      have hnonempty : s.label header c ≠ "" := heq ▸ (isPlainName_of_known name hname).1
      obtain rfl := hlabels c column hnonempty (heq.trans hcolumn.label_eq.symm)
      exact lt_irrefl _ hd
    · exact (h.further d (not_exists.mp hplace)).1 (heq ▸ hname)
  further d hd := by
    obtain ⟨hknown, hzoom⟩ := h.further d hd
    refine ⟨fun heq => hknown (heq ▸ by decide), ?_⟩
    rwa [seeksStart_zoomLink.isIn_iff]

end Sheet

def LoadOptions.tables (o : LoadOptions) : List (String × Int) :=
  [(o.sheets.meetings, o.meetingsHeader), (o.sheets.participants, 0), (o.sheets.zoomRooms, 0)]

def Workbook.Rearranged (o : LoadOptions) (w w' : Workbook) : Prop :=
  ∀ table ∈ o.tables, ∃ s t, w.sheet table.1 = .ok s ∧ w'.sheet table.1 = .ok t ∧
    ∀ header : Nat, table.2 = header →
      s.HasDistinctLabels header ∧ ∃ place, s.Rearranged header place t

theorem Workbook.Rearranged.keepsRows {o : LoadOptions} {w w' : Workbook} (h : w.Rearranged o w')
    {name : String} (position : Int) (htable : (name, position) ∈ o.tables) {s : Sheet}
    (hs : w.sheet name = .ok s) :
    ∃ t, w'.sheet name = .ok t ∧ KeepsRows (s.records position) (t.records position) := by
  obtain ⟨s', t, hs', ht, hheader⟩ := h _ htable
  obtain rfl : s = s' := Except.ok.inj (hs.symm.trans hs')
  refine ⟨t, ht, Sheet.keepsRows_of_headers fun header hposition => ?_⟩
  obtain ⟨hlabels, place, hplace⟩ := hheader header hposition
  exact (hplace.standsIn hlabels).keepsRows

namespace Visit

variable {o : LoadOptions} {v : Visit}

theorem read_of_rearranged {w w' : Workbook} (hsource : o.roleSource = .participantsTable)
    (h : w.Rearranged o w') (hread : read w o = .ok v) : read w' o = .ok v := by
  obtain ⟨schedule, roster, rooms, hschedule, hroster, hrooms, hdrafted, hsound⟩ :=
    sheets_of_read hread
  obtain ⟨schedule', hschedule', hmeetings⟩ :=
    h.keepsRows o.meetingsHeader (by simp [LoadOptions.tables]) hschedule
  obtain ⟨roster', hroster', hparticipants⟩ :=
    h.keepsRows 0 (by simp [LoadOptions.tables]) hroster
  obtain ⟨rooms', hrooms', hzoomRooms⟩ :=
    h.keepsRows 0 (by simp [LoadOptions.tables]) hrooms
  obtain ⟨records, hrecords, hroles⟩ := hdrafted.participants
  refine (read_eq_ok hschedule' hroster' hrooms').mpr ⟨⟨⟨records, ?_, ?_⟩,
    hdrafted.meetings_of_keeps hmeetings, hdrafted.zoomRooms_of_keeps hzoomRooms⟩, hsound⟩
  · exact hparticipants.mapRows rfl (fun hrow => hrow.participant _) hrecords
  · rw [hsource] at hroles ⊢
    exact hroles

/-- The order of the columns and columns that nobody asks for have no influence: if a workbook with
distinct headers is loaded, then the workbook with its columns rearranged gives the same visit and
the same messages. -/
theorem load_of_rearranged {w w' : Workbook} {messages after : List Message}
    (hsource : o.roleSource = .participantsTable) (h : w.Rearranged o w')
    (hload : (load w o).outcome messages = (.ok v, after)) :
    (load w' o).outcome messages = (.ok v, after) := by
  have hread := load_eq_ok hload
  rw [load_congr hread (read_of_rearranged hsource h hread), hload]

def rearrangedTour : Workbook := [
  { name := "Proposed Meetings-MSCHE Team"
    rows := [
      ["Time", "Date", "Notes", "Meeting Location", "Zoom Room Option", "Zoom Link",
        "Interview Assignments", "Team Chair", "SI", "SII", "SIII", "SIV", "SV", "SVI", "SVII",
        "Individuals", "Hide Names"].map .text,
      ["9:00-10:00 a.m.", "Monday, June 2, 2025", "coffee", "Hall", "Primary Room", "Red",
        "Opening", "x", "", "", "", "", "", "", "", "Bo Ek", ""].map .text] },
  { name := "Participant List"
    rows := [
      ["Telephone", "PFX", "First Name", "Last Name", "Title /Involvement", "Staff", "Faculty",
        "Email", "Team Member"].map .text,
      ["1", "", "Ann", "Lee", "Chair", "", "", "", "Team Chair"].map .text,
      ["2", "", "Bo", "Ek", "Dean", "x", "", "", ""].map .text] },
  { name := "Zoom Rooms"
    rows := [["Link", "Zoom Room Name"].map .text, ["https://zoom.us/j/1", "Red"].map .text] }]

theorem rearranged_schedule : Sheet.Rearranged 0 (fun | 0 => 1 | 1 => 0 | column + 2 => column + 3)
    tourBook[0] rearrangedTour[0] where
  hidden := rfl
  injective := by
    rintro (_ | _ | a) (_ | _ | b) h <;> simp_all
  cell := by
    rintro (_ | _ | row) (_ | _ | column) - <;> rfl
  blank := by
    rintro (_ | _ | row) hrow - hblank d -
    · cases hrow
    · exact absurd (hblank 0) (by decide)
    · rfl
  further := by
    rintro (_ | _ | _ | d) hd
    · exact (hd 1 rfl).elim
    · exact (hd 0 rfl).elim
    · decide
    · exact (hd (d + 2) rfl).elim

theorem rearranged_roster : Sheet.Rearranged 0 (· + 1) tourBook[1] rearrangedTour[1] where
  hidden := rfl
  injective := Nat.succ_injective
  cell := by
    rintro (_ | _ | _ | row) column - <;> rfl
  blank := by
    rintro (_ | _ | _ | row) hrow - hblank d -
    · cases hrow
    · exact absurd (hblank 1) (by decide)
    · exact absurd (hblank 1) (by decide)
    · rfl
  further := by
    rintro (_ | d) hd
    · decide
    · exact (hd d rfl).elim

theorem rearranged_rooms : Sheet.Rearranged 0 (Equiv.swap 0 1) tourBook[2] rearrangedTour[2] where
  hidden := rfl
  injective := (Equiv.swap 0 1).injective
  cell := by
    rintro (_ | _ | row) (_ | _ | column) - <;> rfl
  blank _ _ _ _ d hd := (hd _ ((Equiv.swap 0 1).apply_symm_apply d)).elim
  further d hd := (hd _ ((Equiv.swap 0 1).apply_symm_apply d)).elim

theorem rearranged_tour : tourBook.Rearranged {} rearrangedTour := by
  have hplaced {s t : Sheet} {place : Nat → Nat} (hlabels : s.HasDistinctLabels 0)
      (h : s.Rearranged 0 place t) (header : Nat) (hheader : (0 : Int) = header) :
      s.HasDistinctLabels header ∧ ∃ place, s.Rearranged header place t := by
    obtain rfl : 0 = header := Int.ofNat_inj.mp hheader
    exact ⟨hlabels, place, h⟩
  simp only [Workbook.Rearranged, LoadOptions.tables, List.forall_mem_cons]
  exact ⟨⟨_, _, rfl, rfl, hplaced (by decide) rearranged_schedule⟩,
    ⟨_, _, rfl, rfl, hplaced (by decide) rearranged_roster⟩,
    ⟨_, _, rfl, rfl, hplaced (by decide) rearranged_rooms⟩, List.forall_mem_nil _⟩

theorem load_rearrangedTour :
    ∃ after, (load tourBook {}).outcome [] = (.ok tourRead, after) ∧
      (load rearrangedTour {}).outcome [] = (.ok tourRead, after) := by
  obtain ⟨after, hload⟩ := load_tourBook
  exact ⟨after, hload, load_of_rearranged rfl rearranged_tour hload⟩

end Visit
end SiteVisit
