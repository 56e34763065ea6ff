import SiteVisit.Calendar.Zone

namespace SiteVisit.Calendar

/-- What a wall clock reading refers to: nothing known, a fixed distance in microseconds east of
universal time, or the rules of a zone. -/
inductive Frame
  | unknown : Frame
  | fixed (offset : Int) : Frame
  | zone (z : Zone) : Frame
  deriving DecidableEq, Repr

structure Moment where
  wall : Wall
  frame : Frame
  deriving DecidableEq, Repr

namespace Moment

def offset? (m : Moment) : Option Int :=
  match m.frame with
  | .unknown => none
  | .fixed o => some o
  | .zone z => some (z.offsetAtWall m.wall)

def instant? (m : Moment) : Option Int := m.offset?.map (m.wall.micros - ·)

def gap? (a b : Moment) : Option Int :=
  if a.frame = b.frame then some (b.wall.micros - a.wall.micros)
  else do return (← b.instant?) - (← a.instant?)

def utc? (m : Moment) : Option Wall := m.instant?.bind Wall.ofMicros?

def offsetIso (offset : Int) : String :=
  let n := offset.natAbs
  let micro := n % 1000000
  let seconds := n / 1000000
  (if offset < 0 then "-" else "+") ++ Text.padded 2 (seconds / 3600) ++ ":" ++
    Text.padded 2 (seconds / 60 % 60) ++
    (if seconds % 60 == 0 && micro == 0 then "" else ":" ++ Text.padded 2 (seconds % 60)) ++
    (if micro == 0 then "" else "." ++ Text.padded 6 micro)

def offsetSuffix (m : Moment) : String :=
  match m.offset? with
  | some o => offsetIso o
  | none => ""

def iso (m : Moment) : String := m.wall.iso ++ m.offsetSuffix

def isoMinutes (m : Moment) : String := m.wall.isoMinutes ++ m.offsetSuffix

end Moment
end SiteVisit.Calendar
