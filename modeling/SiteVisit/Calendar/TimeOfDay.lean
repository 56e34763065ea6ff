import SiteVisit.Text.Digit

namespace SiteVisit.Calendar

structure TimeOfDay where
  hour : Nat
  minute : Nat
  hour_lt : hour < 24
  minute_lt : minute < 60
  deriving DecidableEq, Repr

inductive ClockFault
  | hour24 (n : Int) : ClockFault
  | minute (n : Int) : ClockFault
  | hour12 (n : Int) : ClockFault
  deriving DecidableEq, Repr

def ClockFault.message : ClockFault → String
  | .hour24 n => "hour24 out of range: " ++ Text.signedDecimal n
  | .minute n => "minute out of range: " ++ Text.signedDecimal n
  | .hour12 n => "hour out of range: " ++ Text.signedDecimal n

inductive Meridiem
  | am : Meridiem
  | pm : Meridiem
  deriving DecidableEq, Repr

namespace TimeOfDay

def ofClock (hour minute : Int) : Except ClockFault TimeOfDay :=
  if hh : 0 ≤ hour ∧ hour < 24 then
    if hm : 0 ≤ minute ∧ minute < 60 then
      .ok ⟨hour.toNat, minute.toNat, by omega, by omega⟩
    else .error (.minute minute)
  else .error (.hour24 hour)

def ofMeridiem (hour minute : Int) (meridiem : Meridiem) : Except ClockFault TimeOfDay :=
  if 1 ≤ hour ∧ hour ≤ 12 then
    let base := if hour = 12 then 0 else hour
    ofClock (match meridiem with | .am => base | .pm => base + 12) minute
  else .error (.hour12 hour)

def minutes (t : TimeOfDay) : Nat := 60 * t.hour + t.minute

def label (t : TimeOfDay) : String :=
  let hour := if t.hour % 12 == 0 then 12 else t.hour % 12
  Text.decimal hour ++ ":" ++ Text.padded 2 t.minute ++ (if t.hour < 12 then " a.m." else " p.m.")

end TimeOfDay

structure TimeRange where
  start : Option TimeOfDay := none
  finish : Option TimeOfDay := none
  deriving DecidableEq, Repr

end SiteVisit.Calendar
