import SiteVisit.Calendar.TimeOfDay
import SiteVisit.Calendar.Wall
import SiteVisit.Decimal.Shortest
import SiteVisit.Markup.TextRun
import SiteVisit.Text.Blank
import SiteVisit.Text.Quoted

namespace SiteVisit

open Calendar Decimal

structure Individual where
  name : String
  id : String
  deriving DecidableEq, Repr

inductive Datum
  | null : Datum
  | bool (b : Bool) : Datum
  | int (n : Int) : Datum
  | float (x : Binary64) : Datum
  | text (s : String) : Datum
  | list (items : List Datum) : Datum
  /-- Named values in order; a row of a sheet also has the markup of its rich text cells. -/
  | record (fields : List (String × Datum)) (markup : List (String × String)) : Datum
  | date (d : Date) : Datum
  | wall (w : Wall) : Datum
  | clock (t : TimeOfDay) (second : Nat) : Datum
  | time (t : TimeOfDay) : Datum
  | range (r : TimeRange) : Datum
  | individual (name : Datum) (id : String) : Datum
  | individuals (people : List Individual) : Datum
  | rich (parts : List Markup.TextRun) : Datum

instance : Inhabited Datum := ⟨.null⟩

namespace Datum

def comma (parts : List String) : String := ", ".intercalate parts

def spelledTime (t : TimeOfDay) : String :=
  "TimeOfDay(hour24=" ++ Text.decimal t.hour ++ ", minute=" ++ Text.decimal t.minute ++ ")"

def spelledTime? : Option TimeOfDay → String
  | none => "None"
  | some t => spelledTime t

def spelledIndividual (name id : String) : String :=
  "Individual(display_name=" ++ name ++ ", id=" ++ Text.quoted id ++ ")"

def clockNumbers (hour minute second micro : Nat) : List Nat :=
  [hour, minute] ++ (if second == 0 && micro == 0 then [] else [second]) ++
    (if micro == 0 then [] else [micro])

mutual

def spelled : Datum → String
  | .null => "None"
  | .bool b => if b then "True" else "False"
  | .int n => Text.signedDecimal n
  | .float x => x.text
  | .text s => Text.quoted s
  | .list items => "[" ++ comma (spelledItems items) ++ "]"
  | .record fields _ => "\x7b" ++ comma (spelledFields fields) ++ "\x7d"
  | .date d => "datetime.date(" ++ comma ([d.year, d.month, d.day].map Text.decimal) ++ ")"
  | .wall w => "datetime.datetime(" ++ comma (([w.date.year, w.date.month, w.date.day] ++
      clockNumbers w.hour w.minute w.second w.micro).map Text.decimal) ++ ")"
  | .clock t s => "datetime.time(" ++ comma ((clockNumbers t.hour t.minute s 0).map Text.decimal) ++ ")"
  | .time t => spelledTime t
  | .range r =>
    "TimeRange(start=" ++ spelledTime? r.start ++ ", end=" ++ spelledTime? r.finish ++ ")"
  | .individual name id => spelledIndividual (spelled name) id
  | .individuals people =>
    let items := people.map fun i => spelledIndividual (Text.quoted i.name) i.id
    "(" ++ comma items ++ (if people.length == 1 then ",)" else ")")
  | .rich parts => "[" ++ comma (parts.map fun p => Text.quoted p.text) ++ "]"

def spelledItems : List Datum → List String
  | [] => []
  | v :: vs => spelled v :: spelledItems vs

def spelledFields : List (String × Datum) → List String
  | [] => []
  | (k, v) :: fs => (Text.quoted k ++ ": " ++ spelled v) :: spelledFields fs

end

def shown : Datum → String
  | .text s => s
  | .date d => d.iso
  | .wall w => w.date.iso ++ " " ++ w.clockIso
  | .clock t s =>
    Text.padded 2 t.hour ++ ":" ++ Text.padded 2 t.minute ++ ":" ++ Text.padded 2 s
  | .rich parts => String.join (parts.map (·.text))
  | v => v.spelled

def isVoid : Datum → Bool
  | .null => true
  | .bool b => !b
  | .int n => n == 0
  | .float x => x.isZero
  | .text s => s.isEmpty
  | .list items => items.isEmpty
  | .record fields _ => fields.isEmpty
  | .individuals people => people.isEmpty
  | .rich parts => parts.isEmpty
  | _ => false

def words (v : Datum) : String := if v.isVoid then "" else v.shown

def kind : Datum → String
  | .null => "NoneType"
  | .bool _ => "bool"
  | .int _ => "int"
  | .float _ => "float"
  | .text _ => "str"
  | .list _ => "list"
  | .record _ _ => "dict"
  | .date _ => "date"
  | .wall _ => "datetime"
  | .clock _ _ => "time"
  | .time _ => "TimeOfDay"
  | .range _ => "TimeRange"
  | .individual _ _ => "Individual"
  | .individuals _ => "tuple"
  | .rich _ => "CellRichText"

def ofTexts (items : List String) : Datum := .list (items.map .text)

end Datum

def field? {α : Type} (fields : List (String × α)) (key : String) : Option α :=
  (fields.find? (·.1 == key)).map (·.2)

def setField {α : Type} (key : String) (value : α) : List (String × α) → List (String × α)
  | [] => [(key, value)]
  | (k, v) :: rest =>
    if k == key then (k, value) :: rest else (k, v) :: setField key value rest

def fieldsOf {α : Type} (pairs : List (String × α)) : List (String × α) :=
  pairs.foldl (fun fields (key, value) => setField key value fields) []

end SiteVisit
