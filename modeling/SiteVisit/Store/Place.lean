import SiteVisit.Folder
import SiteVisit.Store.Populate

namespace SiteVisit.Store

open Calendar (Timezones)

def atEntry (path : String) : Entry (Option Store) → Except Fault Store
  | .absent => .error (.misuse (.storeNotFound path))
  | .directory => .error (.defect .unopenable)
  | .file none => .error (.defect .notAStore)
  | .file (some s) => .ok s

def requireWritable {α : Type} (f : Folder α) (isStore : α → Bool) (path : String) :
    Except Fault Unit := do
  f.makeDirectory (Text.parentPath path)
  match f.entry path with
  | .directory => .error (.defect .unopenable)
  | .file content => if isStore content then .ok () else .error (.defect .notAStore)
  | .absent => .ok ()

class StoreContent (α : Type) where
  store? : α → Option Store

instance : StoreContent Store := ⟨some⟩

def earlierIn {α : Type} [StoreContent α] (f : Folder α) (path : String) : Store :=
  match f.entry path with
  | .file content => (StoreContent.store? content).getD {}
  | _ => {}

/-- Populates the store of a file: the result, what was reported, and the files afterwards. A
place that no store can be written to is left alone. -/
def populateIn {α : Type} [StoreContent α] (f : Folder α) (content : Store → α)
    (isStore : α → Bool) (path : String) (v : Visit) (zone : String) (messages : List Message)
    (zones : Timezones := Timezones.known) : Except Fault Store × List Message × Folder α :=
  match requireWritable f isStore path with
  | .error e => (.error e, messages, f)
  | .ok () =>
    let (result, messages, s) := populateOver (earlierIn f path) path v zone messages zones
    (result, messages, f.put path (content s))

end SiteVisit.Store
