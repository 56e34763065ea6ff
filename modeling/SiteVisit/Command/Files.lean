import SiteVisit.Documents.Block
import SiteVisit.Disk
import SiteVisit.Settings.Read
import SiteVisit.Store.Place
import SiteVisit.Visit.Load

namespace SiteVisit.Command

inductive FileContent
  | workbook (w : Workbook) : FileContent
  | config (c : ConfigFile) : FileContent
  | table (csv : String) : FileContent
  | document (d : Documents.Document) : FileContent
  | store (s : Store) : FileContent

def FileContent.isStore : FileContent → Bool
  | store _ => true
  | _ => false

instance : Store.StoreContent FileContent where
  store?
    | .store s => some s
    | _ => none

abbrev Files := Folder FileContent

namespace Files

def configAt (s : System) (f : Files) (path : String) : ConfigFile :=
  match f.look s.disk path, s.disk.refusal? .read path with
  | .error e, _ => .refused e
  | .ok .absent, _ => .absent
  | .ok .directory, _ => .directory
  | .ok (.file _), some e => .refused (.defect e)
  | .ok (.file (.config c)), none => c
  | .ok (.file _), none => .binary

def load (s : System) (f : Files) (path : String) (options : LoadOptions) : Reporting Visit :=
  match f.look s.disk path, s.disk.refusal? .read path with
  | .error e, _ => throw e
  | _, some e => throw (.defect e)
  | .ok (.file (.workbook w)), none => Visit.load w options
  | _, _ => throw (.defect .notAWorkbook)

end Files

def save (d : Disk) (t : Worktree FileContent) (path : String) (doc : Documents.Document) :
    Except Fault Unit × Worktree FileContent :=
  match t.write d path (.document doc) with
  | (.error e, t) => (.error e, t)
  | (.ok (), t) =>
    (if doc.links.all Documents.isWritable then .ok () else .error (.defect .unwritable), t)

end SiteVisit.Command
