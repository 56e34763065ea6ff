import SiteVisit.Browser.Frame

namespace SiteVisit.Browser

inductive Event
  | windowTitle (text : String) : Event
  | title (text : String) : Event
  | sideHeader (text : String) : Event
  | sideInput (label value : String) : Event
  | sideCaption (text : String) : Event
  | sideButton (label : String) : Event
  | header (text : String) : Event
  | caption (text : String) : Event
  | markdown (text : String) : Event
  | info (text : String) : Event
  | error (text : String) : Event
  | input (label value : String) : Event
  /-- A button without a key is known by its label. -/
  | button (label : String) (key : Option String) : Event
  | download (label content file type : String) : Event
  | table (rows : List FrameRow) : Event
  | choice (label : String) (options : List (Int × String)) : Event
  | enter (part : String) : Event
  | leave (part : String) : Event
  | stop : Event
  | again : Event
  deriving DecidableEq, Repr

/-- What a visitor does: texts typed into inputs by their keys, buttons pressed by their keys or
labels, and an option chosen. -/
structure Visitor where
  typed : List (String × String) := []
  pressed : List String := []
  chosen : Option Int := none
  deriving DecidableEq, Repr

abbrev Address := List (String × String)

namespace Address

def get? (a : Address) (key : String) : Option String := (a.find? (·.1 == key)).map (·.2)

def erase (a : Address) (key : String) : Address := a.filter (·.1 != key)

def put (a : Address) (key value : String) : Address := a.erase key ++ [(key, value)]

end Address

inductive Ending
  | stopped : Ending
  | failed (f : Fault) : Ending

structure Page where
  events : List Event := []
  address : Address := []
  deriving DecidableEq, Repr

abbrev Drawing := ExceptT Ending (StateM Page)

namespace Drawing

def emit (e : Event) : Drawing Unit := modify fun p => { p with events := p.events ++ [e] }

def ofExcept {α : Type} : Except Fault α → Drawing α
  | .ok a => pure a
  | .error f => throw (.failed f)

def stop {α : Type} : Drawing α := do
  emit .stop
  throw .stopped

def again {α : Type} : Drawing α := do
  emit .again
  throw .stopped

def within {α : Type} (part : String) (body : Drawing α) : Drawing α := do
  emit (.enter part)
  ExceptT.mk do
    let r ← body.run
    (emit (.leave part)).run *> pure r

def input (v : Visitor) (event : String → Event) (key default : String) : Drawing String := do
  let value := ((v.typed.find? (·.1 == key)).map (·.2)).getD default
  emit (event value)
  return value

def button (v : Visitor) (event : Event) (name : String) : Drawing Bool := do
  emit event
  return v.pressed.contains name

end Drawing

def selectMeeting (id : Int) : Drawing Unit :=
  modify fun p => { p with address := p.address.put "meeting" (Text.signedDecimal id) }

def deselectMeeting : Drawing Unit :=
  modify fun p => { p with address := p.address.erase "meeting" }

end SiteVisit.Browser
