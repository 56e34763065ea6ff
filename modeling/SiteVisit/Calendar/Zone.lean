import SiteVisit.Calendar.Wall

/-!
Time zones: the distance of wall clocks from universal time, and the yearly rule by which some
zones put their clocks forward and back again.

A zone answers two questions, and each is the inverse of the other as far as wall clocks allow:
the offset at a wall clock reading, which is the earlier one where the reading comes twice and
the one before the change where it is left out, and the offset at an instant.
-/

namespace SiteVisit.Calendar

inductive Sunday
  | nth (k : Nat) : Sunday
  | last : Sunday
  deriving DecidableEq, Repr

structure Change where
  month : Nat
  sunday : Sunday
  hour : Nat
  deriving DecidableEq, Repr

/-- Clocks go forward by an hour at `start` and back at `finish`. Each change is given by the
hour that the clocks show before it. -/
structure Saving where
  start : Change
  finish : Change
  deriving DecidableEq, Repr

structure Zone where
  name : String
  standard : Int
  saving : Option Saving
  standard_range : -1440 < standard ∧ standard + 60 < 1440
  deriving DecidableEq, Repr

def Change.day (c : Change) (year : Nat) : Nat :=
  let firstOrdinal := daysBeforeYear year + daysBeforeMonth year c.month + 1
  let firstSunday := 1 + (7 - firstOrdinal % 7) % 7
  match c.sunday with
  | .nth k => firstSunday + 7 * (k - 1)
  | .last => firstSunday + 7 * ((daysInMonth year c.month - firstSunday) / 7)

def Change.micros (c : Change) (year : Nat) : Int :=
  (daysBeforeYear year + daysBeforeMonth year c.month + c.day year : Nat) * Calendar.day
    + c.hour * Calendar.hour

def inSeason (start finish point : Int) : Bool :=
  if start < finish then start ≤ point && point < finish else !(finish ≤ point && point < start)

namespace Zone

def standardOffset (z : Zone) : Int := z.standard * minute

def offsetAtWall (z : Zone) (w : Wall) : Int :=
  match z.saving with
  | none => z.standardOffset
  | some s =>
    let year := w.date.year
    if inSeason (s.start.micros year + hour) (s.finish.micros year) w.micros
    then z.standardOffset + hour else z.standardOffset

/-- The offset in force at an instant. The year is the one that clocks without saving show. -/
def offsetAtInstant (z : Zone) (t : Int) : Int :=
  match z.saving, Wall.ofMicros? (t + z.standardOffset) with
  | some s, some w =>
    let year := w.date.year
    if inSeason (s.start.micros year) (s.finish.micros year - hour) (t + z.standardOffset)
    then z.standardOffset + hour else z.standardOffset
  | _, _ => z.standardOffset

def wallAt? (z : Zone) (t : Int) : Option Wall := Wall.ofMicros? (t + z.offsetAtInstant t)

end Zone

def northAmerican : Saving := ⟨⟨3, .nth 2, 2⟩, ⟨11, .nth 1, 2⟩⟩

def british : Saving := ⟨⟨3, .last, 1⟩, ⟨10, .last, 2⟩⟩

def southEastAustralian : Saving := ⟨⟨10, .nth 1, 2⟩, ⟨4, .nth 1, 3⟩⟩

-- The rules are those that hold since 2008. In earlier years the clocks of some of these zones were
-- put forward and back on other days, which is not told here.
def zones : List Zone := [
  ⟨"UTC", 0, none, by decide⟩,
  ⟨"America/New_York", -300, some northAmerican, by decide⟩,
  ⟨"America/Chicago", -360, some northAmerican, by decide⟩,
  ⟨"America/Los_Angeles", -480, some northAmerican, by decide⟩,
  ⟨"Europe/London", 0, some british, by decide⟩,
  ⟨"Asia/Kolkata", 330, none, by decide⟩,
  ⟨"Asia/Tokyo", 540, none, by decide⟩,
  ⟨"Asia/Kathmandu", 345, none, by decide⟩,
  ⟨"Australia/Sydney", 600, some southEastAustralian, by decide⟩,
  ⟨"EST5EDT", -300, some northAmerican, by decide⟩,
  ⟨"Etc/GMT+5", -300, none, by decide⟩]

def Zone.ofName? (name : String) : Option Zone := zones.find? (·.name == name)

theorem Zone.offsetAtWall_range (z : Zone) (w : Wall) :
    -day < z.offsetAtWall w ∧ z.offsetAtWall w < day := by
  have hz := z.standard_range
  have hstandard : z.offsetAtWall w = z.standardOffset ∨
      z.offsetAtWall w = z.standardOffset + hour := by
    rw [offsetAtWall]
    split
    · exact .inl rfl
    · dsimp only
      split
      · exact .inr rfl
      · exact .inl rfl
  simp only [standardOffset, day, hour, minute, second] at *
  omega

/-- How far wall clocks are ahead of universal time at each of their readings. -/
structure Offsets where
  ahead : Wall → Int
  ahead_range : ∀ w, -day < ahead w ∧ ahead w < day

abbrev Timezones := String → Option Offsets

def Timezones.known : Timezones := fun name =>
  (Zone.ofName? name).map fun z => ⟨z.offsetAtWall, z.offsetAtWall_range⟩

/-- What a database of time zones answers to a name. -/
inductive ZoneAnswer
  | known (z : Offsets) : ZoneAnswer
  /-- No zone has the name, or none could have it. -/
  | missing : ZoneAnswer
  /-- The database itself fails, for example where the name is that of one of its directories. -/
  | failing (name text : String) : ZoneAnswer

def ZoneAnswer.offsets? : ZoneAnswer → Option Offsets
  | known z => some z
  | _ => none

abbrev ZoneDatabase := String → ZoneAnswer

namespace ZoneDatabase

def timezones (db : ZoneDatabase) : Timezones := fun name => (db name).offsets?

def ofTimezones (zones : Timezones) : ZoneDatabase := fun name =>
  match zones name with
  | some z => .known z
  | none => .missing

end ZoneDatabase

end SiteVisit.Calendar
