import SiteVisit.Settings.Basic
import SiteVisit.Settings.Number
import SiteVisit.System

/-!
Reading settings from the values of a configuration file and from the environment. The
environment wins, and what neither names has a default. A key that is written without a value is
not a missing key: its text is the text of no value.
-/

namespace SiteVisit

open Calendar (ZoneDatabase)

def settingText (fields : List (String × Datum)) (key default : String) : String :=
  ((field? fields key).map Datum.shown).getD default

def settingOrNull (fields : List (String × Datum)) (key : String) : Datum :=
  (field? fields key).getD .null

def groupFields (v : Datum) : Except Fault (List (String × Datum)) :=
  if v.isVoid then .ok []
  else
    match v with
    | .record fields _ => .ok fields
    | _ => .error (.defect .noSuchPart)

def RoleSource.read : Datum → Except Fault RoleSource
  | .null => .ok .participantsTable
  | .record fields _ => do
    let type := settingText fields "type" "participantsTable"
    if type == "participantsTable" then return .participantsTable
    if type == "meetingsTable" then
      let nameRow ← (settingOrNull fields "name_row").wholeOr 0
      let headerRow ← (settingOrNull fields "header_row").wholeOr 2
      return .meetingsTable nameRow headerRow
    .error (.misuse (.unknownRoleSource type))
  | _ => .error (.misuse .roleSourceKind)

def SheetNames.read (v : Datum) : Except Fault SheetNames :=
  let names (fields : List (String × Datum)) : SheetNames :=
    let standard : SheetNames := {}
    { meetings := settingText fields "meetings" standard.meetings
      participants := settingText fields "participants" standard.participants
      zoomRooms := settingText fields "zoom_rooms" standard.zoomRooms }
  if v.isVoid then .ok (names [])
  else
    match v with
    | .record fields _ => .ok (names fields)
    | _ => .error (.misuse .sheetsKind)

def LoadOptions.read (v : Datum) : Except Fault LoadOptions := do
  let fields ← groupFields v
  let sheets ← SheetNames.read (settingOrNull fields "sheets")
  let roleSource ← RoleSource.read (settingOrNull fields "team_role_source")
  let meetingsHeader ← (settingOrNull fields "meeting_range").wholeOr 0
  return { roleSource, meetingsHeader, sheets }

def DocumentSettings.read (v : Datum) : Except Fault DocumentSettings := do
  let fields ← groupFields v
  let standard : DocumentSettings := {}
  return {
    institution := settingText fields "institution" standard.institution
    visitTitle := settingText fields "visit_title" standard.visitTitle
    visitDates := settingText fields "visit_dates" standard.visitDates
    teamLabel := settingText fields "team_label" standard.teamLabel
    representativeLabel := settingText fields "representative_label" standard.representativeLabel }

/-- The name of a zone, if there is one. A database that fails is told as a bad value only if it calls
the name one. -/
def readTimezone (name : String) (zones : ZoneDatabase := System.standard.zones) :
    Except Fault String :=
  match zones name with
  | .known _ => .ok name
  | .missing => .error (.misuse (.unknownTimezone name))
  | .failing kind text =>
    let e : Fault := .defect (.foreign kind text)
    if e.isBadValue then .error (.misuse (.unknownTimezone name)) else .error e

structure Environment where
  config : Option String := none
  storePath : Option String := none
  timezone : Option String := none
  maxWorkers : Option String := none
  deriving DecidableEq, Repr

def timezoneName (fields : List (String × Datum)) (env : Environment) : String :=
  let standard : Settings := {}
  env.timezone.getD (settingText fields "timezone" standard.timezone)

def Settings.read (zones : ZoneDatabase) (fields : List (String × Datum)) (env : Environment) :
    Except Fault Settings := do
  let documents ← DocumentSettings.read (settingOrNull fields "documents")
  let loadOptions ← LoadOptions.read (settingOrNull fields "load")
  let standard : Settings := {}
  let storePath := env.storePath.getD (settingText fields "db_path" standard.storePath)
  let timezone ← readTimezone (timezoneName fields env) zones
  let configured ← (settingOrNull fields "max_workers").wholeOr standard.maxWorkers
  let maxWorkers ← ((env.maxWorkers.map Datum.text).getD .null).wholeOr configured
  return { loadOptions, documents, storePath := Text.path storePath, timezone, maxWorkers }

/-- What is found at the place of a configuration: nothing, a directory, a place that the system
refuses to open, a file of another kind, a text, or values that have been read from a text. -/
inductive ConfigFile
  | absent : ConfigFile
  | directory : ConfigFile
  | refused (e : Fault) : ConfigFile
  | binary : ConfigFile
  | text (s : String) : ConfigFile
  | values (v : Datum) : ConfigFile

def ConfigFile.fields (s : System) (path : String) (file : ConfigFile) :
    Except Fault (List (String × Datum)) := do
  let v ← match file with
    | .absent => pure .null
    | .directory => .error (.defect (.isADirectory path))
    | .refused e => .error e
    | .binary => .error (.defect .notText)
    | .values v => pure v
    | .text content =>
      match s.yaml content with
      | .ok v => pure v
      | .error .malformed => .error (.misuse (.configSyntax path))
      | .error .noSuchDate => .error (.defect .badNumber)
      | .error (.failing kind message) => .error (.defect (.foreign kind message))
  if v.isVoid then return []
  match v with
  | .record fields _ => return fields
  | _ => .error (.misuse (.configKind path))

/-- The path of the configuration: the one that is asked for, or else the one of the environment
if it is not empty, or else the usual one. -/
def configPath (asked : Option String) (env : Environment) : String :=
  match asked, env.config with
  | some p, _ => Text.path p
  | none, some p => if p.isEmpty then "visit.yaml" else Text.path p
  | none, none => "visit.yaml"

def Settings.load (asked : Option String) (env : Environment) (fileAt : String → ConfigFile)
    (s : System := .standard) : Except Fault Settings := do
  let path := configPath asked env
  let fields ← (fileAt path).fields s path
  Settings.read s.zones fields env

end SiteVisit
