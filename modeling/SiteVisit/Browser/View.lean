import SiteVisit.Browser.Html
import SiteVisit.Browser.Page
import SiteVisit.Settings.Basic
import SiteVisit.Settings.Number
import SiteVisit.Store.Place
import SiteVisit.Store.Query

namespace SiteVisit.Browser

open Calendar Drawing

def displayName (name : String) (id : Int) : String :=
  if name.isEmpty then "Meeting " ++ Text.signedDecimal id else name

def card (v : Visitor) (now : Moment) (title : String) (m : Store.MeetingRow) : Drawing Unit :=
  within "container" do
    let key := title ++ "_" ++ Text.decimal m.id
    if ← button v (.button (displayName m.name m.id) (some key)) key then selectMeeting m.id
    let text ← ofExcept (describeWhen now m.start m.finish)
    emit (.caption (if text.isEmpty then m.time else text))

def cards (v : Visitor) (now : Moment) (title : String) (rows : List Store.MeetingRow) :
    Drawing Unit := do
  emit (.markdown ("### " ++ title))
  if rows.isEmpty then emit (.markdown "_None_") else rows.forM (card v now title)

def people (title : String) (rows : List Store.PersonRow) : Drawing Unit := do
  emit (.markdown ("**" ++ title ++ ":**"))
  if rows.isEmpty then emit (.markdown "_None_")
  else emit (.markdown (peopleLines (rows.map fun p => (p.name, p.title))))

def pluralChars : List Char → List Char
  | '(' :: 's' :: ')' :: cs => 's' :: pluralChars cs
  | c :: cs => c :: pluralChars cs
  | [] => []

def plural (label : String) : String := String.ofList (pluralChars label.toList)

def roomLine (r : Store.RoomRow) : String :=
  "Zoom Room Option: " ++
    if r.link.isEmpty then r.name else "[" ++ r.name ++ "](" ++ r.link ++ ")"

def detail (settings : DocumentSettings) (now : Moment) (d : Store.Detail) : Drawing Unit := do
  let m := d.meeting
  emit (.header (displayName m.name m.id))
  emit (.caption (m.date ++ ", " ++ m.time))
  if !m.location.isEmpty then emit (.caption m.location)
  let text ← ofExcept (describeWhen now m.start m.finish)
  if !text.isEmpty then emit (.caption ("🕒 " ++ text))
  if let some r := d.room then emit (.markdown (roomLine r))
  if !d.roleRuns.isEmpty then emit (.markdown ("Team Roles: " ++ runsHtml d.roleRuns))
  people (plural settings.teamLabel) d.teamMembers
  people (plural settings.representativeLabel) d.representatives

def detailOf (settings : DocumentSettings) (store : Except Fault Store) (now : Moment) (id : Int) :
    Drawing Unit := do
  match ← ofExcept (store.bind (·.detail? id)) with
  | none => emit (.error ("Meeting " ++ Text.signedDecimal id ++ " not found."))
  | some d => detail settings now d

def invalidMeeting (asked : String) : Drawing Unit :=
  emit (.error ("Invalid meeting id: " ++ asked))

/-- Draws a meeting; values that cannot be used are taken for a wrong number. -/
def selectedMeeting (settings : DocumentSettings) (store : Except Fault Store) (now : Moment)
    (asked : String) : Drawing Unit :=
  match wholeNumber? asked with
  | none => invalidMeeting asked
  | some id =>
    tryCatch (detailOf settings store now id) fun
      | .failed f => if f.isBadValue then invalidMeeting asked else throw (.failed f)
      | .stopped => throw .stopped

def nowTab (v : Visitor) (store : Except Fault Store) (now : Moment) : Drawing Unit :=
  within "Now" do
    cards v now "Current Meetings" (← ofExcept (store.bind (·.current now)))
    cards v now "Upcoming Meetings" (← ofExcept (store.bind (·.upcoming now)))

def allTab (v : Visitor) (store : Except Fault Store) (now : Moment) : Drawing Unit :=
  within "All Meetings" do
    let term := Text.trim (← input v (.input "Search (meeting name or location)") "search_text" "")
    let store ← ofExcept store
    let rows ← ofExcept (if term.isEmpty then .ok store.meetings else store.searchMeetings term)
    let frame ← ofExcept (rows.mapM (FrameRow.ofMeeting now))
    emit (.markdown ("### Meetings (" ++ Text.decimal frame.length ++ " rows)"))
    emit (.download "Download CSV" (frameCsv frame) "meetings.csv" "text/csv")
    emit (.table frame)
    match frame with
    | [] => return
    | first :: _ =>
      emit (.choice "Open meeting" (frame.map fun r => (r.id, r.name)))
      if ← button v (.button "Show details" none) "Show details" then
        selectMeeting (v.chosen.getD first.id)
        again

def contents (settings : DocumentSettings) (v : Visitor) (store : Except Fault Store) (now : Moment)
    (selected : String) : Drawing Unit := do
  if selected.isEmpty then
    nowTab v store now
    allTab v store now
  else
    if ← button v (.sideButton "Back to meetings") "Back to meetings" then
      deselectMeeting
      again
    selectedMeeting settings store now selected

/-- The moment that counts as the present one: that of the address, or else that of the clock. -/
def presentMoment (timezone : String) (clock : Moment) (asked : String)
    (zones : Timezones := Timezones.known) : Except Fault Moment :=
  match IsoText.overrideBy asked ((zones timezone).map fun z w => .fixed (z.ahead w)) with
  | none => .error (.misuse (.unknownTimezone timezone))
  | some m => .ok (m.getD clock)

def draw (settings : Settings) (entryAt : String → Entry (Option Store)) (clock : Moment)
    (v : Visitor) (zones : Timezones := Timezones.known) : Drawing Unit := do
  emit (.windowTitle "Visit Browser")
  emit (.title (settings.documents.visitTitle ++ " Browser"))
  emit (.sideHeader "Data Source")
  let path := Text.path (← input v (.sideInput "SQLite path") "db_path" settings.storePath)
  let asked := ((← get).address.get? "now").getD ""
  let now ← ofExcept (presentMoment settings.timezone clock asked zones)
  emit (.sideCaption ("Now: " ++ now.isoMinutes))
  let store := Store.atEntry path (entryAt path)
  match entryAt path, store with
  | .absent, .error f =>
    emit (.info f.message)
    stop
  | .directory, .error f => throw (.failed f)
  | _, _ =>
    let selected := ((← get).address.get? "meeting").getD ""
    contents settings.documents v store now selected

def ended : Except Ending Unit × Page → Option Ending × Page
  | (.ok (), p) => (none, p)
  | (.error e, p) => (some e, p)

def page (settings : Settings) (entryAt : String → Entry (Option Store)) (clock : Moment)
    (v : Visitor) (address : Address) (zones : Timezones := Timezones.known) :
    Option Ending × Page :=
  ended ((draw settings entryAt clock v zones).run.run { address })

end SiteVisit.Browser
