import SiteVisit.Command.Populate
import SiteVisit.Proofs.Outcome

namespace SiteVisit

open Calendar (ZoneDatabase)

inductive Datum.IsGroup : Datum → Prop
  | void {v : Datum} : v.isVoid = true → IsGroup v
  | record (fields : List (String × Datum)) (markup : List (String × String)) :
    IsGroup (.record fields markup)

def Datum.IsFinite (v : Datum) : Prop := ∀ negative, v ≠ .float (.infinite negative)

def Datum.HasFiniteRows (v : Datum) : Prop :=
  ∀ fields markup, v = .record fields markup →
    settingText fields "type" "participantsTable" = "meetingsTable" →
      (settingOrNull fields "name_row").IsFinite ∧ (settingOrNull fields "header_row").IsFinite

/-- The fields of a configuration in which every value can be told to be right or wrong. -/
structure IsRegular (fields : List (String × Datum)) : Prop where
  documents : (settingOrNull fields "documents").IsGroup
  load : (settingOrNull fields "load").IsGroup
  roleSource : ((settingOrNull fields "load").fieldAt "team_role_source").HasFiniteRows
  meetingRange : ((settingOrNull fields "load").fieldAt "meeting_range").IsFinite
  maxWorkers : (settingOrNull fields "max_workers").IsFinite

section Values

variable {v : Datum} {default n : Int} {e : Fault} {fields : List (String × Datum)}

theorem groupFields_eq_ok (h : groupFields v = .ok fields) :
    v.IsGroup ∧ ∀ key, settingOrNull fields key = v.fieldAt key := by
  rw [groupFields.eq_def] at h
  split at h
  next hvoid =>
    cases h
    refine ⟨.void hvoid, fun key => ?_⟩
    cases v with
    | record fields markup =>
      rw [List.isEmpty_iff.mp hvoid]
      rfl
    | _ => rfl
  next =>
    split at h
    · cases h
      exact ⟨.record _ _, fun _ => rfl⟩
    · cases h

theorem groupFields_eq_error (h : groupFields v = .error e) :
    ¬ v.IsGroup ∧ e = .defect .noSuchPart := by
  rw [groupFields.eq_def] at h
  split at h
  · cases h
  next hvoid =>
    split at h
    · cases h
    next hrecord =>
      cases h
      refine ⟨fun hgroup => ?_, rfl⟩
      cases hgroup with
      | void h => exact hvoid h
      | record fields markup => exact hrecord fields markup rfl

theorem isFinite_of_wholeOr (h : v.wholeOr default = .ok n) : v.IsFinite := by
  rintro negative rfl
  cases h

theorem wholeOr_eq_error (h : v.wholeOr default = .error e) :
    ¬ v.IsFinite ∧ e = .defect .outOfRange := by
  rw [Datum.wholeOr.eq_def] at h
  split at h <;> cases h
  exact ⟨fun hfinite => hfinite _ rfl, rfl⟩

theorem wholeOr_environment (text : Option String) :
    ∃ n, ((text.map Datum.text).getD .null).wholeOr default = .ok n := by
  cases text with
  | none => exact ⟨_, rfl⟩
  | some s => exact ⟨_, rfl⟩

end Values

section Groups

variable {v : Datum} {e : Fault} {fields : List (String × Datum)} {env : Environment}
  {zones : ZoneDatabase}

theorem SheetNames.read_eq_error (h : SheetNames.read v = .error e) : e.isBadValue = true := by
  rw [SheetNames.read.eq_def] at h
  split at h
  · cases h
  · split at h <;> cases h
    rfl

theorem readTimezone_eq_error {name : String} (h : readTimezone name zones = .error e) :
    e.isBadValue = true ∨
      ∃ kind text, zones name = .failing kind text ∧ e = .defect (.foreign kind text) := by
  rw [readTimezone] at h
  cases hanswer : zones name with
  | known z => simp [hanswer] at h
  | missing =>
    simp only [hanswer, Except.error.injEq] at h
    subst h
    exact .inl rfl
  | failing kind text =>
    simp only [hanswer] at h
    split at h
    · cases h
      exact .inl rfl
    · cases h
      exact .inr ⟨kind, text, rfl, rfl⟩

theorem RoleSource.hasFiniteRows_of_read {source : RoleSource} (h : RoleSource.read v = .ok source) :
    v.HasFiniteRows := by
  rintro fields markup rfl htype
  rw [RoleSource.read] at h
  simp only [htype, String.reduceBEq, Bool.false_eq_true, if_false, if_true, bind_eq_ok] at h
  obtain ⟨_, hname, _, hheader, -⟩ := h
  exact ⟨isFinite_of_wholeOr hname, isFinite_of_wholeOr hheader⟩

theorem RoleSource.read_eq_error (h : RoleSource.read v = .error e) :
    e.isBadValue = true ∨ e = .defect .outOfRange ∧ ¬ v.HasFiniteRows := by
  rw [RoleSource.read.eq_def] at h
  split at h
  · cases h
  next fields markup =>
    dsimp only at h
    split at h
    · cases h
    split at h
    next htype =>
      have hrows (hrows : Datum.HasFiniteRows (.record fields markup)) :=
        hrows fields markup rfl (eq_of_beq htype)
      rcases bind_eq_error.mp h with h | ⟨_, -, h⟩
      · obtain ⟨hinfinite, rfl⟩ := wholeOr_eq_error h
        exact .inr ⟨rfl, fun h => hinfinite (hrows h).1⟩
      rcases bind_eq_error.mp h with h | ⟨_, -, h⟩
      · obtain ⟨hinfinite, rfl⟩ := wholeOr_eq_error h
        exact .inr ⟨rfl, fun h => hinfinite (hrows h).2⟩
      · cases h
    · cases h
      exact .inl rfl
  · cases h
    exact .inl rfl

theorem LoadOptions.regular_of_read {options : LoadOptions} (h : LoadOptions.read v = .ok options) :
    v.IsGroup ∧ (v.fieldAt "team_role_source").HasFiniteRows ∧
      (v.fieldAt "meeting_range").IsFinite := by
  simp only [LoadOptions.read, bind_eq_ok] at h
  obtain ⟨fields, hfields, _, -, _, hsource, _, hrange, -⟩ := h
  obtain ⟨hgroup, hfields⟩ := groupFields_eq_ok hfields
  rw [hfields] at hsource hrange
  exact ⟨hgroup, RoleSource.hasFiniteRows_of_read hsource, isFinite_of_wholeOr hrange⟩

theorem LoadOptions.read_eq_error (h : LoadOptions.read v = .error e) :
    e.isBadValue = true ∨ e = .defect .noSuchPart ∧ ¬ v.IsGroup ∨
      e = .defect .outOfRange ∧ ¬ ((v.fieldAt "team_role_source").HasFiniteRows ∧
        (v.fieldAt "meeting_range").IsFinite) := by
  rcases bind_eq_error.mp h with h | ⟨fields, hfields, h⟩
  · obtain ⟨hgroup, rfl⟩ := groupFields_eq_error h
    exact .inr (.inl ⟨rfl, hgroup⟩)
  obtain ⟨-, hfields⟩ := groupFields_eq_ok hfields
  rcases bind_eq_error.mp h with h | ⟨_, -, h⟩
  · exact .inl (SheetNames.read_eq_error h)
  rcases bind_eq_error.mp h with h | ⟨_, -, h⟩
  · rw [hfields] at h
    rcases RoleSource.read_eq_error h with h | ⟨rfl, hrows⟩
    · exact .inl h
    · exact .inr (.inr ⟨rfl, fun h => hrows h.1⟩)
  rcases bind_eq_error.mp h with h | ⟨_, -, h⟩
  · rw [hfields] at h
    obtain ⟨hinfinite, rfl⟩ := wholeOr_eq_error h
    exact .inr (.inr ⟨rfl, fun h => hinfinite h.2⟩)
  · cases h

theorem DocumentSettings.read_eq_error (h : DocumentSettings.read v = .error e) :
    e = .defect .noSuchPart ∧ ¬ v.IsGroup := by
  rcases bind_eq_error.mp h with h | ⟨_, -, h⟩
  · exact (groupFields_eq_error h).symm
  · cases h

theorem Settings.isRegular_of_read {settings : Settings}
    (h : Settings.read zones fields env = .ok settings) : IsRegular fields := by
  simp only [Settings.read, bind_eq_ok] at h
  obtain ⟨_, hdocuments, _, hload, _, -, _, hworkers, -⟩ := h
  rw [DocumentSettings.read, bind_eq_ok] at hdocuments
  obtain ⟨_, hdocuments, -⟩ := hdocuments
  obtain ⟨hgroup, hsource, hrange⟩ := LoadOptions.regular_of_read hload
  exact ⟨(groupFields_eq_ok hdocuments).1, hgroup, hsource, hrange, isFinite_of_wholeOr hworkers⟩

theorem Settings.read_eq_error (h : Settings.read zones fields env = .error e) :
    e.isBadValue = true ∨
      e = .defect .noSuchPart ∧ ¬ ((settingOrNull fields "documents").IsGroup ∧
        (settingOrNull fields "load").IsGroup) ∨
      e = .defect .outOfRange ∧ ¬ IsRegular fields ∨
      ∃ kind text, zones (timezoneName fields env) = .failing kind text ∧
        e = .defect (.foreign kind text) := by
  rcases bind_eq_error.mp h with h | ⟨_, -, h⟩
  · obtain ⟨rfl, hgroup⟩ := DocumentSettings.read_eq_error h
    exact .inr (.inl ⟨rfl, fun h => hgroup h.1⟩)
  rcases bind_eq_error.mp h with h | ⟨_, -, h⟩
  · rcases LoadOptions.read_eq_error h with h | ⟨rfl, hgroup⟩ | ⟨rfl, hinfinite⟩
    · exact .inl h
    · exact .inr (.inl ⟨rfl, fun h => hgroup h.2⟩)
    · exact .inr (.inr (.inl ⟨rfl, fun h => hinfinite ⟨h.roleSource, h.meetingRange⟩⟩))
  rcases bind_eq_error.mp h with h | ⟨_, -, h⟩
  · exact (readTimezone_eq_error h).imp_right fun h => .inr (.inr h)
  rcases bind_eq_error.mp h with h | ⟨_, -, h⟩
  · obtain ⟨hinfinite, rfl⟩ := wholeOr_eq_error h
    exact .inr (.inr (.inl ⟨rfl, fun h => hinfinite h.maxWorkers⟩))
  rcases bind_eq_error.mp h with h | ⟨_, -, h⟩
  · obtain ⟨n, hn⟩ := wholeOr_environment env.maxWorkers
    rw [hn] at h
    cases h
  · cases h

theorem groupFields_of_not_isGroup (h : ¬ v.IsGroup) :
    groupFields v = .error (.defect .noSuchPart) := by
  cases hfields : groupFields v with
  | ok fields => exact absurd (groupFields_eq_ok hfields).1 h
  | error e => rw [(groupFields_eq_error hfields).2]

theorem Settings.read_of_not_isGroup (h : ¬ ((settingOrNull fields "documents").IsGroup ∧
    (settingOrNull fields "load").IsGroup)) :
    Settings.read zones fields env = .error (.defect .noSuchPart) := by
  rw [Settings.read, DocumentSettings.read]
  cases hdocuments : groupFields (settingOrNull fields "documents") with
  | error e =>
    rw [(groupFields_eq_error hdocuments).2]
    rfl
  | ok _ =>
    have hload := groupFields_of_not_isGroup fun hload => h ⟨(groupFields_eq_ok hdocuments).1, hload⟩
    rw [LoadOptions.read, hload]
    rfl

end Groups

namespace Command

variable {s : System} {config : Option String} {env : Environment} {f : Files} {e : Fault}
  {fields : List (String × Datum)}

/-- Both commands end in this way when they are called with a configuration. -/
def BothEnd (s : System) (config : Option String) (env : Environment) (f : Files)
    (r : Except Fault Finished) : Prop :=
  (∀ args : GenerateArguments, args.config = config → Generate.run args env f s = r) ∧
    ∀ args : PopulateArguments, args.config = config → Populate.run args env f s = r

theorem bothEnd_of_load (h : Settings.load config env (f.configAt s) s = .error e) :
    BothEnd s config env f (if e.isBadValue then
      .ok ⟨1, [.error ("Failed to load config: " ++ e.message)], f⟩ else .error e) := by
  constructor
  · rintro args rfl
    simp only [Generate.run, Generate.runWith, Generate.withInput, h]
  · rintro args rfl
    simp only [Populate.run, Generate.withInput, h]

theorem bothEnd_of_defect (h : Settings.load config env (f.configAt s) s = .error e)
    (hbad : e.isBadValue = false) : BothEnd s config env f (.error e) := by
  have hends := bothEnd_of_load h
  rwa [if_neg (by rw [hbad]; exact Bool.false_ne_true)] at hends

theorem load_of_fields
    (hfile : (f.configAt s (configPath config env)).fields s (configPath config env) = .ok fields) :
    Settings.load config env (f.configAt s) s = Settings.read s.zones fields env := by
  rw [Settings.load]
  simp only [hfile, ok_bind]

/-- A regular configuration gives settings, or it is told to be wrong: both commands then log that
and end with 1. Nothing else can happen but that the database of time zones itself fails, which ends
both without a result. A configuration that is not regular never gives settings. It ends both
commands without a result, unless a wrong value is told first; for a group that is no mapping nothing
comes first. -/
theorem load_of_config
    (hfile : (f.configAt s (configPath config env)).fields s (configPath config env) = .ok fields) :
    (IsRegular fields →
      (∃ settings, Settings.load config env (f.configAt s) s = .ok settings) ∨
      (∃ e, Settings.load config env (f.configAt s) s = .error e ∧ e.isBadValue = true ∧
        BothEnd s config env f (.ok ⟨1, [.error ("Failed to load config: " ++ e.message)], f⟩)) ∨
      ∃ kind text, s.zones (timezoneName fields env) = .failing kind text ∧
        Settings.load config env (f.configAt s) s = .error (.defect (.foreign kind text)) ∧
        BothEnd s config env f (.error (.defect (.foreign kind text)))) ∧
    (¬ IsRegular fields →
      ∃ e, Settings.load config env (f.configAt s) s = .error e ∧
        (e.isBadValue = false →
          (e = .defect .noSuchPart ∨ e = .defect .outOfRange ∨
            ∃ kind text, s.zones (timezoneName fields env) = .failing kind text ∧
              e = .defect (.foreign kind text)) ∧
          BothEnd s config env f (.error e))) ∧
    (Settings.load config env (f.configAt s) s = .error (.defect .noSuchPart) ↔
      ¬ ((settingOrNull fields "documents").IsGroup ∧ (settingOrNull fields "load").IsGroup)) := by
  have hload := load_of_fields hfile
  refine ⟨fun hregular => ?_, fun hirregular => ?_, fun h => ?_, fun h => ?_⟩
  · cases hread : Settings.read s.zones fields env with
    | ok settings => exact .inl ⟨settings, hload.trans hread⟩
    | error e =>
      have hends := hload.trans hread
      cases hbad : e.isBadValue with
      | true =>
        have htold := bothEnd_of_load hends
        rw [if_pos hbad] at htold
        exact .inr (.inl ⟨e, hends, hbad, htold⟩)
      | false =>
        rcases Settings.read_eq_error hread with h | ⟨-, h⟩ | ⟨-, h⟩ | ⟨kind, text, hzone, rfl⟩
        · rw [hbad] at h
          cases h
        · exact absurd ⟨hregular.documents, hregular.load⟩ h
        · exact absurd hregular h
        · exact .inr (.inr ⟨kind, text, hzone, hends, bothEnd_of_defect hends hbad⟩)
  · cases hread : Settings.read s.zones fields env with
    | ok settings => exact absurd (Settings.isRegular_of_read hread) hirregular
    | error e =>
      have hends := hload.trans hread
      refine ⟨e, hends, fun hbad => ⟨?_, bothEnd_of_defect hends hbad⟩⟩
      rcases Settings.read_eq_error hread with h | ⟨h, -⟩ | ⟨h, -⟩ | hzone
      · rw [hbad] at h
        cases h
      · exact .inl h
      · exact .inr (.inl h)
      · exact .inr (.inr hzone)
  · rcases Settings.read_eq_error (hload.symm.trans h) with h | ⟨-, h⟩ | ⟨h, -⟩ | ⟨_, _, -, h⟩
    · cases h
    · exact h
    · cases h
    · cases h
  · exact hload.trans (Settings.read_of_not_isGroup h)

def configured (fields : List (String × Datum)) : Files :=
  ⟨[("visit.yaml", .config (.values (.record fields [])))]⟩

def wrongValues : List (String × Datum) :=
  [("documents", .list []),
    ("load", .record [("sheets", .bool false), ("meeting_range", .float .nan),
      ("team_role_source", .record [("type", .text "meetingsTable"), ("name_row", .list [])] [])] []),
    ("timezone", .null), ("max_workers", .record [] [])]

theorem isRegular_wrongValues : IsRegular wrongValues where
  documents := .void rfl
  load := .record _ _
  roleSource := by
    rintro fields markup h -
    cases h
    constructor <;> rintro negative h <;> cases h
  meetingRange := by
    rintro negative h
    cases h
  maxWorkers := by
    rintro negative h
    cases h

theorem load_of_wrongValues :
    ((configured wrongValues).configAt .standard (configPath none {})).fields .standard
        (configPath none {}) = .ok wrongValues ∧
      IsRegular wrongValues ∧
      BothEnd .standard none {} (configured wrongValues) (.ok ⟨1,
        [.error ("Failed to load config: " ++ "Unknown timezone: None")], configured wrongValues⟩) := by
  have hfile : ((configured wrongValues).configAt .standard (configPath none {})).fields .standard
      (configPath none {}) = .ok wrongValues := rfl
  have hload : Settings.load none {} ((configured wrongValues).configAt .standard) .standard =
      .error (.misuse (.unknownTimezone "None")) := rfl
  refine ⟨hfile, isRegular_wrongValues, ?_⟩
  obtain ⟨settings, h⟩ | ⟨e, h, -, hends⟩ | ⟨kind, text, -, h, -⟩ :=
    (load_of_config hfile).1 isRegular_wrongValues
  · rw [hload] at h
    cases h
  · rw [hload] at h
    cases h
    exact hends
  · rw [hload] at h
    cases h

/-- A system whose database of time zones keeps each zone in the directory of its continent. -/
def continents : System where
  zones name :=
    if name = "America" then .failing "IsADirectoryError" "[Errno 21] Is a directory"
    else System.standard.zones name
  yaml := Yaml.read
  disk := .plain

/-- Texts of the documents that are a number, an infinite number of documents at once, and a name that
is a directory of the database of time zones are told by neither command. -/
theorem wrong_config_not_told :
    (∃ fields, ((configured fields).configAt .standard "visit.yaml").fields .standard "visit.yaml" =
        .ok fields ∧
      BothEnd .standard none {} (configured fields) (.error (.defect .noSuchPart))) ∧
    (∃ fields, ((configured fields).configAt .standard "visit.yaml").fields .standard "visit.yaml" =
        .ok fields ∧
      BothEnd .standard none {} (configured fields) (.error (.defect .outOfRange))) ∧
    ∃ (s : System) (fields : List (String × Datum)),
      s.zones "America" = .failing "IsADirectoryError" "[Errno 21] Is a directory" ∧
      ((configured fields).configAt s "visit.yaml").fields s "visit.yaml" = .ok fields ∧
      BothEnd s none {} (configured fields)
        (.error (.defect (.foreign "IsADirectoryError" "[Errno 21] Is a directory"))) := by
  have hnumber : Settings.load none {}
      ((configured [("documents", .int 5)]).configAt .standard) .standard =
      .error (.defect .noSuchPart) := rfl
  have hinfinite : Settings.load none {}
      ((configured [("max_workers", .float (.infinite false))]).configAt .standard) .standard =
      .error (.defect .outOfRange) := rfl
  have hzone : Settings.load none {}
      ((configured [("timezone", .text "America")]).configAt continents) continents =
      .error (.defect (.foreign "IsADirectoryError" "[Errno 21] Is a directory")) := rfl
  exact ⟨⟨_, rfl, bothEnd_of_defect hnumber rfl⟩, ⟨_, rfl, bothEnd_of_defect hinfinite rfl⟩,
    continents, _, rfl, rfl, bothEnd_of_defect hzone (by decide)⟩

end Command
end SiteVisit
