import SiteVisit.Proofs.Mapping.Fields
import SiteVisit.Proofs.Settings.Faults

/-!
Keys of a configuration that are written without a value. Where a number or a group of settings is
asked for, such a key may as well be left out. Where a text is asked for it may not: it is read as
the text of no value, and not as the default.
-/

namespace SiteVisit

inductive SettingGroup
  | whole : SettingGroup
  | documents : SettingGroup
  | load : SettingGroup
  | sheets : SettingGroup
  | roleSource : SettingGroup
  deriving DecidableEq, Repr

namespace SettingGroup

def texts : SettingGroup → List String
  | whole => ["db_path", "timezone"]
  | documents => ["institution", "visit_title", "visit_dates", "team_label", "representative_label"]
  | load => []
  | sheets => ["meetings", "participants", "zoom_rooms"]
  | roleSource => ["type"]

def parts : SettingGroup → List (String × SettingGroup)
  | whole => [("documents", documents), ("load", load)]
  | load => [("sheets", sheets), ("team_role_source", roleSource)]
  | _ => []

variable {g inner inner' : SettingGroup} {key : String}

theorem notMem_texts_of_part (h : (key, inner) ∈ g.parts) : key ∉ g.texts := by
  have hparts : ∀ part ∈ g.parts, part.1 ∉ g.texts := by
    cases g <;> decide
  exact hparts _ h

theorem part_unique (h : (key, inner) ∈ g.parts) (h' : (key, inner') ∈ g.parts) :
    inner = inner' := by
  have hparts : ∀ part ∈ g.parts, ∀ part' ∈ g.parts, part.1 = part'.1 → part.2 = part'.2 := by
    cases g <;> decide
  exact hparts _ h _ h' rfl

end SettingGroup

/-- The fields of a group, written in two ways. A key without a value is left out, or it is given the
text of no value if it stands for a text. -/
inductive Restated : SettingGroup → List (String × Datum) → List (String × Datum) → Prop
  | nil {g : SettingGroup} : Restated g [] []
  | kept {g : SettingGroup} {fields fields' : List (String × Datum)} (key : String) (v : Datum) :
    Restated g fields fields' → Restated g ((key, v) :: fields) ((key, v) :: fields')
  | omitted {g : SettingGroup} {fields fields' : List (String × Datum)} {key : String} :
    key ∉ g.texts → field? fields key = none → Restated g fields fields' →
      Restated g ((key, .null) :: fields) fields'
  | worded {g : SettingGroup} {fields fields' : List (String × Datum)} {key : String} :
    key ∈ g.texts → Restated g fields fields' →
      Restated g ((key, .null) :: fields) ((key, .text "None") :: fields')
  | within {g inner : SettingGroup} {fields fields' part part' : List (String × Datum)}
    {key : String} {markup : List (String × String)} :
    (key, inner) ∈ g.parts → Restated inner part part' → Restated g fields fields' →
      Restated g ((key, .record part markup) :: fields) ((key, .record part' markup) :: fields')

inductive Restated.Found (g : SettingGroup) (key : String) : Option Datum → Option Datum → Prop
  | same (v : Option Datum) : Found g key v v
  | omitted : key ∉ g.texts → Found g key (some .null) none
  | worded : key ∈ g.texts → Found g key (some .null) (some (.text "None"))
  | within {inner : SettingGroup} {part part' : List (String × Datum)}
    {markup : List (String × String)} : (key, inner) ∈ g.parts → Restated inner part part' →
      Found g key (some (.record part markup)) (some (.record part' markup))

theorem groupFields_record (fields : List (String × Datum)) (markup : List (String × String)) :
    groupFields (.record fields markup) = .ok fields := by
  cases fields <;> rfl

namespace Restated

variable {g inner : SettingGroup} {fields fields' : List (String × Datum)} {key : String}
  {v v' : Option Datum}

theorem found (h : Restated g fields fields') (key : String) :
    Found g key (field? fields key) (field? fields' key) := by
  induction h with
  | nil => exact .same none
  | kept k v _ ih =>
    rw [field?_cons, field?_cons]
    split
    · exact .same (some v)
    · exact ih
  | @omitted g fields fields' k htext hnone _ ih =>
    rw [field?_cons]
    split
    · next hk =>
      subst hk
      -- the key is not written again
      rw [hnone] at ih
      cases hfound : field? fields' k with
      | none => exact .omitted htext
      | some v =>
        rw [hfound] at ih
        cases ih
    · exact ih
  | worded htext _ ih =>
    rw [field?_cons, field?_cons]
    split
    · next hk => exact .worded (hk ▸ htext)
    · exact ih
  | within hpart hinner _ _ ih =>
    rw [field?_cons, field?_cons]
    split
    · next hk => exact .within (hk ▸ hpart) hinner
    · exact ih

theorem settingText (h : Restated g fields fields') (hkey : key ∈ g.texts) (default : String) :
    SiteVisit.settingText fields' key default = SiteVisit.settingText fields key default := by
  have hfound := h.found key
  rw [SiteVisit.settingText, SiteVisit.settingText]
  generalize field? fields key = v, field? fields' key = v' at hfound ⊢
  cases hfound with
  | same => rfl
  | omitted htext => exact absurd hkey htext
  | worded => rfl
  | within hpart => exact absurd hkey (SettingGroup.notMem_texts_of_part hpart)

theorem settingOrNull (h : Restated g fields fields') (htext : key ∉ g.texts)
    (hpart : key ∉ g.parts.map (·.1)) :
    SiteVisit.settingOrNull fields' key = SiteVisit.settingOrNull fields key := by
  have hfound := h.found key
  rw [SiteVisit.settingOrNull, SiteVisit.settingOrNull]
  generalize field? fields key = v, field? fields' key = v' at hfound ⊢
  cases hfound with
  | same => rfl
  | omitted => rfl
  | worded hkey => exact absurd hkey htext
  | within hinner => exact absurd (List.mem_map_of_mem hinner) hpart

theorem part (h : Restated g fields fields') (hpart : (key, inner) ∈ g.parts) {α : Type}
    {read : Datum → α}
    (hread : ∀ part part' markup, Restated inner part part' →
      read (.record part' markup) = read (.record part markup)) :
    read (SiteVisit.settingOrNull fields' key) = read (SiteVisit.settingOrNull fields key) := by
  have hfound := h.found key
  rw [SiteVisit.settingOrNull, SiteVisit.settingOrNull]
  generalize field? fields key = v, field? fields' key = v' at hfound ⊢
  cases hfound with
  | same => rfl
  | omitted => rfl
  | worded hkey => exact absurd hkey (SettingGroup.notMem_texts_of_part hpart)
  | within hinner hrestated =>
    cases SettingGroup.part_unique hpart hinner
    exact hread _ _ _ hrestated

end Restated

section Readers

variable {fields fields' : List (String × Datum)} {markup : List (String × String)}

theorem SheetNames.read_restated (h : Restated .sheets fields fields') :
    SheetNames.read (.record fields' markup) = SheetNames.read (.record fields markup) := by
  have hread (fields : List (String × Datum)) : SheetNames.read (.record fields markup) = .ok {
      meetings := settingText fields "meetings" "Proposed Meetings-MSCHE Team"
      participants := settingText fields "participants" "Participant List"
      zoomRooms := settingText fields "zoom_rooms" "Zoom Rooms" } := by
    cases fields <;> rfl
  rw [hread, hread, h.settingText (by decide), h.settingText (by decide), h.settingText (by decide)]

theorem RoleSource.read_restated (h : Restated .roleSource fields fields') :
    RoleSource.read (.record fields' markup) = RoleSource.read (.record fields markup) := by
  simp only [RoleSource.read]
  rw [h.settingText (by decide), h.settingOrNull (by decide) (by decide),
    h.settingOrNull (by decide) (by decide)]

theorem LoadOptions.read_restated (h : Restated .load fields fields') :
    LoadOptions.read (.record fields' markup) = LoadOptions.read (.record fields markup) := by
  simp only [LoadOptions.read, groupFields_record, ok_bind]
  rw [h.part (by decide) fun _ _ _ => SheetNames.read_restated,
    h.part (by decide) fun _ _ _ => RoleSource.read_restated,
    h.settingOrNull (by decide) (by decide)]

theorem DocumentSettings.read_restated (h : Restated .documents fields fields') :
    DocumentSettings.read (.record fields' markup) =
      DocumentSettings.read (.record fields markup) := by
  simp only [DocumentSettings.read, groupFields_record, ok_bind]
  rw [h.settingText (by decide), h.settingText (by decide), h.settingText (by decide),
    h.settingText (by decide), h.settingText (by decide)]

theorem Settings.read_restated (h : Restated .whole fields fields')
    (zones : Calendar.ZoneDatabase) (env : Environment) :
    Settings.read zones fields' env = Settings.read zones fields env := by
  simp only [Settings.read, timezoneName]
  rw [h.part (by decide) fun _ _ _ => DocumentSettings.read_restated,
    h.part (by decide) fun _ _ _ => LoadOptions.read_restated,
    h.settingText (by decide), h.settingText (by decide), h.settingOrNull (by decide) (by decide)]

end Readers

/-- Whatever numbers and groups without a value are left out, at whatever place, and whatever texts
without a value are given the text of no value instead, the settings are the same, or the fault. -/
theorem Settings.load_of_restated {s : System} {asked : Option String} {env : Environment}
    {fileAt fileAt' : String → ConfigFile} {fields fields' : List (String × Datum)}
    (hfile : (fileAt (configPath asked env)).fields s (configPath asked env) = .ok fields)
    (hfile' : (fileAt' (configPath asked env)).fields s (configPath asked env) = .ok fields')
    (h : Restated .whole fields fields') :
    Settings.load asked env fileAt' s = Settings.load asked env fileAt s := by
  simp only [Settings.load, hfile, hfile', ok_bind]
  exact Settings.read_restated h s.zones env

def unsetFields : List (String × Datum) := [
  ("documents", .null),
  ("load", .record [("meeting_range", .null), ("sheets", .record [("meetings", .null)] []),
    ("team_role_source", .record [("type", .text "meetingsTable"), ("header_row", .null)] [])] []),
  ("db_path", .null), ("max_workers", .null)]

def unsetTexts : List (String × Datum) := [
  ("load", .record [("sheets", .record [("meetings", .text "None")] []),
    ("team_role_source", .record [("type", .text "meetingsTable")] [])] []),
  ("db_path", .text "None")]

theorem restated_unsetFields : Restated .whole unsetFields unsetTexts := by
  have hsheets : Restated .sheets [("meetings", .null)] [("meetings", .text "None")] :=
    .worded (by decide) .nil
  have hsource : Restated .roleSource [("type", .text "meetingsTable"), ("header_row", .null)]
      [("type", .text "meetingsTable")] :=
    .kept _ _ (.omitted (by decide) rfl .nil)
  have hload : Restated .load
      [("meeting_range", .null), ("sheets", .record [("meetings", .null)] []),
        ("team_role_source", .record [("type", .text "meetingsTable"), ("header_row", .null)] [])]
      [("sheets", .record [("meetings", .text "None")] []),
        ("team_role_source", .record [("type", .text "meetingsTable")] [])] :=
    .omitted (by decide) rfl (.within (by decide) hsheets (.within (by decide) hsource .nil))
  exact .omitted (by decide) rfl (.within (by decide) hload
    (.worded (by decide) (.omitted (by decide) rfl .nil)))

theorem load_unsetFields : Settings.load none {} (fun _ => .values (.record unsetFields [])) = .ok {
    loadOptions := {
      roleSource := .meetingsTable 0 2
      sheets := { meetings := "None" } }
    storePath := "None" } := by
  have hload : Settings.load none {} (fun _ => .values (.record unsetTexts [])) =
      Settings.load none {} (fun _ => .values (.record unsetFields [])) :=
    Settings.load_of_restated rfl rfl restated_unsetFields
  rw [← hload]
  rfl

/-- A text without a value is not the default: it is shown in the documents, and it is no time zone. -/
theorem unset_text_not_default :
    (Settings.load none {} fun _ => .values (.record [("documents", .record [] [])] [])) = .ok {} ∧
    (Settings.load none {} fun _ => .values (.record [("documents",
      .record [("institution", .null)] [])] [])) = .ok { documents := { institution := "None" } } ∧
    (Settings.load none {} fun _ => .values (.record [("timezone", .null)] [])) =
      .error (.misuse (.unknownTimezone "None")) :=
  ⟨rfl, rfl, rfl⟩

end SiteVisit
