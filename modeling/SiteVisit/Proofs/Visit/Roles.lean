import SiteVisit.Proofs.Outcome
import SiteVisit.Visit.Load

namespace SiteVisit

def labelsBelow (headers : Line) (lastName : String) : Nat → List String → List String
  | _, [] => []
  | column, cell :: rest =>
    (if Text.trim cell = lastName ∧ Text.trim cell ≠ "" then [Text.trim (headers.value column)]
      else []) ++ labelsBelow headers lastName (column + 1) rest

def addRole (roles : List String) (label : String) : List String :=
  if roles.contains label then roles else roles ++ [label]

def Participant.gain (p : Participant) (labels : List String) : Participant :=
  { p with roles := labels.foldl addRole p.roles }

@[simp] theorem Participant.gain_nil (p : Participant) : p.gain [] = p := rfl

@[simp] theorem Participant.gain_lastName (p : Participant) (labels : List String) :
    (p.gain labels).lastName = p.lastName := rfl

@[simp] theorem Participant.gain_id (p : Participant) (labels : List String) :
    (p.gain labels).id = p.id := rfl

theorem Participant.gain_append (p : Participant) (labels more : List String) :
    p.gain (labels ++ more) = (p.gain labels).gain more := by
  simp only [gain, List.foldl_append]

theorem Participant.gain_column (p : Participant) (headers : Line) (column : Nat) (cell : String) :
    p.gain (labelsBelow headers p.lastName column [cell]) =
      if Text.trim cell = p.lastName ∧ Text.trim cell ≠ "" then
        { p with roles := addRole p.roles (Text.trim (headers.value column)) } else p := by
  simp only [labelsBelow, List.append_nil]
  split <;> rfl

def Resolves (participants : List Participant) (cells : List String) : Prop :=
  ∀ cell ∈ cells, Text.trim cell ≠ "" →
    ∃ p, participants.filter (·.lastName == Text.trim cell) = [p]

section Columns

variable {participants : List Participant} (headers : Line) (column : Nat)

theorem onlyNamed_eq_ok {lastName role : String} {p : Participant} :
    onlyNamed participants lastName role = .ok p ↔
      participants.filter (·.lastName == lastName) = [p] := by
  rw [onlyNamed]
  generalize participants.filter (·.lastName == lastName) = found
  rcases found with _ | ⟨q, _ | ⟨q', rest⟩⟩ <;> simp

theorem Mendable.onlyNamed (lastName role : String) :
    Mendable (onlyNamed participants lastName role) := by
  rw [SiteVisit.onlyNamed]
  split
  · exact problem _
  · exact ok _
  · exact problem _

theorem assignColumn_run {cell : String} (hcell : Text.trim cell ≠ "") {p : Participant}
    (hp : participants.filter (·.lastName == Text.trim cell) = [p]) :
    ∃ new, (assignColumn headers column cell).run.run participants =
      (.ok new, participants.map fun q => q.gain (labelsBelow headers q.lastName column [cell])) := by
  have hfound : ∀ q ∈ participants, q.lastName = Text.trim cell → q = p := by
    intro q hq hname
    have hmem : q ∈ participants.filter (·.lastName == Text.trim cell) := by simp [hq, hname]
    rwa [hp, List.mem_singleton] at hmem
  simp only [assignColumn]
  rw [if_neg (by simpa using hcell)]
  simp only [run_run_bind, run_run_get, run_run_mk, onlyNamed_eq_ok.mpr hp,
    Participant.gain_column]
  split
  · next hrole =>
    refine ⟨false, ?_⟩
    rw [run_run_pure, List.map_congr_left (g := id), List.map_id]
    intro q hq
    split
    · next hname => rw [addRole, hfound q hq hname.1.symm, if_pos hrole, id]
    · rfl
  · next hrole =>
    refine ⟨true, ?_⟩
    simp only [run_run_bind, run_run_set, run_run_pure, grant]
    refine congrArg (Prod.mk _) (List.map_congr_left fun q hq => ?_)
    by_cases hname : q.lastName = Text.trim cell
    · rw [if_pos (beq_iff_eq.mpr hname), if_pos ⟨hname.symm, hcell⟩, addRole,
        hfound q hq hname, if_neg hrole]
    · rw [if_neg (by simpa using hname), if_neg (fun h => hname h.1.symm)]

theorem assignColumn_blank {cell : String} (hcell : Text.trim cell = "") :
    (assignColumn headers column cell).run.run participants = (.ok false, participants) := by
  simp only [assignColumn]
  rw [if_pos (by simpa using hcell), run_run_pure]

theorem assignColumn_gives {cell : String} (h : Resolves participants [cell]) :
    ∃ new, (assignColumn headers column cell).run.run participants =
      (.ok new, participants.map fun p => p.gain (labelsBelow headers p.lastName column [cell])) := by
  by_cases hblank : Text.trim cell = ""
  · refine ⟨false, ?_⟩
    rw [assignColumn_blank headers column hblank]
    simp [Participant.gain_column, hblank]
  · obtain ⟨p, hp⟩ := h cell List.mem_cons_self hblank
    exact assignColumn_run headers column hblank hp

theorem resolves_map {f : Participant → Participant} (hf : ∀ p, (f p).lastName = p.lastName)
    {cells : List String} : Resolves (participants.map f) cells ↔ Resolves participants cells := by
  have hfilter (name : String) : (participants.map f).filter (·.lastName == name) =
      (participants.filter (·.lastName == name)).map f := by
    rw [List.filter_map]
    exact congrArg _ (List.filter_congr fun p _ => by rw [Function.comp_apply, hf])
  simp only [Resolves, hfilter, List.map_eq_singleton_iff]
  grind

theorem assignColumns_run {cells : List String} (h : Resolves participants cells) :
    ∃ n, (assignColumns headers column cells).run.run participants =
      (.ok n, participants.map fun p => p.gain (labelsBelow headers p.lastName column cells)) := by
  induction cells generalizing column participants with
  | nil => exact ⟨0, by simp only [assignColumns, run_run_pure, labelsBelow,
      Participant.gain_nil, List.map_id']⟩
  | cons cell rest ih =>
    obtain ⟨hcell, hrest⟩ := List.forall_mem_cons.mp h
    have hlabels (p : Participant) : p.gain (labelsBelow headers p.lastName column (cell :: rest)) =
        (p.gain (labelsBelow headers p.lastName column [cell])).gain
          (labelsBelow headers p.lastName (column + 1) rest) := by
      rw [← Participant.gain_append]
      simp only [labelsBelow, List.append_nil]
    obtain ⟨new, hnew⟩ := assignColumn_gives headers column
      (show Resolves participants [cell] by simpa [Resolves] using hcell)
    have hresolves : Resolves
        (participants.map fun p => p.gain (labelsBelow headers p.lastName column [cell])) rest :=
      (resolves_map fun _ => Participant.gain_lastName _ _).mpr hrest
    obtain ⟨n, hn⟩ := ih (column + 1) hresolves
    simp only [assignColumns, run_run_bind, hnew, hn, run_run_pure, hlabels, List.map_map,
      Function.comp_def, Participant.gain_lastName]
    exact ⟨_, rfl⟩

theorem assignColumn_fails {cell : String} (hcell : Text.trim cell ≠ "")
    (hnone : ¬ ∃ p, participants.filter (·.lastName == Text.trim cell) = [p]) :
    ∃ problem, (assignColumn headers column cell).run.run participants =
      (.error (.problem problem), participants) := by
  simp only [assignColumn]
  rw [if_neg (by simpa using hcell)]
  simp only [run_run_bind, run_run_get, run_run_mk]
  cases hnamed : onlyNamed participants (Text.trim cell) (Text.trim (headers.value column)) with
  | ok p => exact (hnone ⟨p, onlyNamed_eq_ok.mp hnamed⟩).elim
  | error f =>
    obtain ⟨problem, rfl⟩ := Mendable.onlyNamed _ _ f hnamed
    exact ⟨problem, rfl⟩

theorem assignColumns_fails {cells : List String} (h : ¬ Resolves participants cells) :
    ∃ problem after, (assignColumns headers column cells).run.run participants =
      (.error (.problem problem), after) := by
  induction cells generalizing column participants with
  | nil => exact (h fun _ hcell => (List.not_mem_nil hcell).elim).elim
  | cons cell rest ih =>
    by_cases hcell : Text.trim cell ≠ "" →
        ∃ p, participants.filter (·.lastName == Text.trim cell) = [p]
    · have hone : Resolves participants [cell] := by simpa [Resolves] using hcell
      obtain ⟨new, hnew⟩ := assignColumn_gives headers column hone
      have hrest : ¬ Resolves
          (participants.map fun p => p.gain (labelsBelow headers p.lastName column [cell])) rest := by
        rw [resolves_map fun _ => Participant.gain_lastName _ _]
        exact fun hrest => h (List.forall_mem_cons.mpr ⟨hcell, hrest⟩)
      obtain ⟨problem, after, hfails⟩ := ih (column + 1) hrest
      exact ⟨problem, after, by simp only [assignColumns, run_run_bind, hnew, hfails]⟩
    · obtain ⟨hcell, hnone⟩ := Classical.not_imp.mp hcell
      obtain ⟨problem, hfails⟩ := assignColumn_fails headers column
        hcell hnone
      exact ⟨problem, participants, by simp only [assignColumns, run_run_bind, hfails]⟩

end Columns

/-- The roster after the roles have been read: if they stand above the schedule, both rows are
there, every name is the last name of one person, and everybody has the labels below the own
name. -/
def RolesRead (schedule : Sheet) (before after : List Participant) : RoleSource → Prop
  | .participantsTable => after = before
  | .meetingsTable nameRow headerRow =>
    ∃ names headers, lineAt? schedule.allLines nameRow = some names ∧
      lineAt? schedule.allLines headerRow = some headers ∧ Resolves before names.values ∧
      after = before.map fun p => p.gain (labelsBelow headers p.lastName 0 names.values)

theorem RolesRead.eq_map_gain {schedule : Sheet} {before after : List Participant}
    {source : RoleSource} (h : RolesRead schedule before after source) :
    ∃ labels : Participant → List String, after = before.map fun p => p.gain (labels p) := by
  cases source with
  | participantsTable => exact ⟨fun _ => [], by rw [show after = before from h]; simp⟩
  | meetingsTable nameRow headerRow =>
    obtain ⟨names, headers, -, -, -, hafter⟩ := h
    exact ⟨fun p => labelsBelow headers p.lastName 0 names.values, hafter⟩

theorem withRoles_eq_ok {source : RoleSource} {schedule : Sheet} {before after : List Participant} :
    withRoles source schedule before = .ok after ↔ RolesRead schedule before after source := by
  cases source with
  | participantsTable => simp only [withRoles, RolesRead, Except.ok.injEq, eq_comm]
  | meetingsTable nameRow headerRow =>
    simp only [withRoles, RolesRead, assignRoles]
    cases hnames : lineAt? schedule.allLines nameRow with
    | none => simp
    | some names =>
      cases hheaders : lineAt? schedule.allLines headerRow with
      | none => simp
      | some headers =>
        by_cases hresolves : Resolves before names.values
        · obtain ⟨n, hn⟩ := assignColumns_run headers 0 hresolves
          simp only [hn]
          simp [hresolves, eq_comm]
        · obtain ⟨problem, after', hfails⟩ :=
            assignColumns_fails headers 0 hresolves
          simp only [hfails]
          simp [hresolves]

theorem Mendable.withRoles (source : RoleSource) (schedule : Sheet)
    (participants : List Participant) : Mendable (withRoles source schedule participants) := by
  cases source with
  | participantsTable => exact ok _
  | meetingsTable nameRow headerRow =>
    simp only [SiteVisit.withRoles, assignRoles]
    cases lineAt? schedule.allLines nameRow with
    | none => exact problem _
    | some names =>
      cases lineAt? schedule.allLines headerRow with
      | none => exact problem _
      | some headers =>
        by_cases hresolves : Resolves participants names.values
        · obtain ⟨n, hn⟩ := assignColumns_run headers 0 hresolves
          simp only [hn]
          exact ok _
        · obtain ⟨p, after, hfails⟩ :=
            assignColumns_fails headers 0 hresolves
          simp only [hfails]
          exact problem p

end SiteVisit
