import SiteVisit.Fault
import SiteVisit.Text.Path

/-!
The files of a working directory. A directory is there as soon as a file is in it, and those that
a file needs are made when it is written.
-/

namespace SiteVisit

structure Folder (α : Type) where
  files : List (String × α) := []
  deriving DecidableEq, Repr

inductive Entry (α : Type)
  | absent : Entry α
  | directory : Entry α
  | file (content : α) : Entry α
  deriving DecidableEq, Repr

namespace Folder

variable {α : Type}

def entry (f : Folder α) (path : String) : Entry α :=
  match f.files.find? (·.1 == path) with
  | some (_, content) => .file content
  | none =>
    if Text.isStanding path || f.files.any fun (p, _) => (path ++ "/").isPrefixOf p then .directory
    else .absent

def isFile (f : Folder α) (path : String) : Bool := f.files.any (·.1 == path)

def inTheWay (f : Folder α) (path : String) : List String :=
  (f.files.map (·.1)).filter fun p => (p ++ "/").isPrefixOf path

def makeDirectory (f : Folder α) (directory : String) : Except Fault Unit :=
  if f.isFile directory then .error (.defect (.fileInTheWay directory))
  else if (f.inTheWay directory).isEmpty then .ok ()
  else .error (.defect (.notADirectory directory))

def put (f : Folder α) (path : String) (content : α) : Folder α :=
  if f.isFile path then
    ⟨f.files.map fun (p, old) => (p, if p == path then content else old)⟩
  else ⟨f.files ++ [(path, content)]⟩

end Folder
end SiteVisit
