import SiteVisit.Message
import SiteVisit.Store.Basic
import SiteVisit.Visit.Basic

/-!
Sessions of writing to the file of a store. A statement that defines a table takes effect at once.
One that enters a row opens a transaction: its rows are in the file when it is committed, and are
forgotten when the session ends before that. Failures of the engine itself are left out: a file that
is locked or may not be written to, and a disk that is full.
-/

namespace SiteVisit.Store

structure Table (ρ : Type) where
  rows : Store → List ρ
  withRows : List ρ → Store → Store
  number : ρ → Nat
  unique : String := ""
  clash : ρ → ρ → Bool := fun _ _ => false
  rows_withRows : ∀ given s, rows (withRows given s) = given := by intros; rfl
  withRows_withRows : ∀ given more s, withRows given (withRows more s) = withRows given s := by
    intros; rfl
  withRows_rows : ∀ s, withRows (rows s) s = s := by intros; rfl

namespace Table

def rooms : Table RoomRow where
  rows := Store.rooms
  withRows rows s := { s with rooms := rows }
  number := RoomRow.id
  unique := "zoom_rooms.name"
  clash a b := a.name == b.name

def meetings : Table MeetingRow where
  rows := Store.meetings
  withRows rows s := { s with meetings := rows }
  number := MeetingRow.id

def people : Table PersonRow where
  rows := Store.people
  withRows rows s := { s with people := rows }
  number := PersonRow.id
  unique := "participants.slug"
  clash a b := a.slug == b.slug

def attendance : Table AttendanceRow where
  rows := Store.attendance
  withRows rows s := { s with attendance := rows }
  number := AttendanceRow.id
  unique := "meeting_participation.meeting_id, meeting_participation.participant_id"
  clash a b := a.meeting == b.meeting && a.person == b.person

variable {ρ : Type}

def emptied (t : Table ρ) (s : Store) : Store := t.withRows [] s

def next (t : Table ρ) (s : Store) : Nat := ((t.rows s).map t.number).foldl max 0 + 1

def enter (t : Table ρ) (row : Nat → ρ) (s : Store) : Except Fault (Nat × Store) :=
  let id := t.next s
  if (t.rows s).any (t.clash (row id)) then .error (.defect (.notUnique t.unique))
  else .ok (id, t.withRows (t.rows s ++ [row id]) s)

end Table

/-- What defines the tables anew, those that refer to others first. -/
def definitions : List (Store → Store) :=
  [Table.attendance.emptied, Table.people.emptied, Table.meetings.emptied, Table.rooms.emptied]

structure Session where
  /-- What the file holds. -/
  saved : Store := {}
  /-- The tables as the open transaction has them, if one is open. -/
  pending : Option Store := none
  messages : List Message := []
  deriving DecidableEq, Repr

def Session.tables (s : Session) : Store := s.pending.getD s.saved

abbrev Writing := ExceptT Fault (StateM Session)

namespace Writing

variable {α : Type}

def outcome (action : Writing α) (s : Session) : Except Fault α × Session := action.run.run s

def ofExcept : Except Fault α → Writing α
  | .ok a => pure a
  | .error f => throw f

def reporting (action : Reporting α) : Writing α :=
  ExceptT.mk (modifyGet fun s =>
    let (result, messages) := action.outcome s.messages
    (result, { s with messages }))

def define (definition : Store → Store) : Writing Unit := modify fun s =>
  match s.pending with
  | none => { s with saved := definition s.saved }
  | some tables => { s with pending := some (definition tables) }

def enter {ρ : Type} (t : Table ρ) (row : Nat → ρ) : Writing Nat :=
  ExceptT.mk (modifyGet fun s =>
    match t.enter row s.tables with
    | .ok (id, tables) => (.ok id, { s with pending := some tables })
    | .error f => (.error f, { s with pending := some s.tables }))

def commit : Writing Unit := modify fun s => { s with saved := s.tables, pending := none }

end Writing
end SiteVisit.Store
