import SiteVisit.Calendar.IsoText
import SiteVisit.Fault

namespace SiteVisit

open Calendar

def Calendar.Wall.at (d : Date) (t : TimeOfDay) : Wall :=
  ⟨d, t.hour, t.minute, 0, 0, t.hour_lt, t.minute_lt, by omega, by omega⟩

namespace Stamp

def ofWall (w : Wall) : String := w.iso ++ "+00:00"

def ofMoment (m : Moment) : Except Fault String :=
  match m.instant?, m.utc? with
  | none, _ => .error (.misuse .momentWithoutZone)
  | some _, none => .error (.defect .outOfRange)
  | some _, some w => .ok (ofWall w)

def ofLocal (day : Option Date) (clock : Option TimeOfDay) (zone : String)
    (zones : Timezones := Timezones.known) : Except Fault (Option String) :=
  match day, clock with
  | some d, some t =>
    match zones zone with
    | none => .error (.misuse (.unknownTimezone zone))
    | some z => (ofMoment ⟨Wall.at d t, .fixed (z.ahead (Wall.at d t))⟩).map some
  | _, _ => .ok none

def read (text : Option String) : Except Fault (Option Moment) :=
  match text.filter (!·.isEmpty) with
  | none => .ok none
  | some s =>
    match IsoText.parse s with
    | some m => .ok (some m)
    | none => .error (.defect .badMoment)

end Stamp
end SiteVisit
