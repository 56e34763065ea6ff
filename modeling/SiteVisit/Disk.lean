import SiteVisit.Folder

/-!
What a disk adds to the files of a folder: the one name of a place that several paths may lead to,
the directories on the way, and the paths that the system refuses. A refusal hangs on the path and
on what was there before a run, not on what the run itself writes.
-/

namespace SiteVisit

inductive Access
  | look : Access
  | read : Access
  | make : Access
  | create : Access
  deriving DecidableEq, Repr

structure Disk where
  /-- The name of what a path leads to. -/
  real : String → String
  /-- The names of the directories that a path leads through, the outermost first. -/
  way : String → List String
  /-- Why a path is not taken at all. -/
  rejects : Access → String → Option Defect
  /-- Why a name cannot be reached in its directory, or made there. -/
  bars : Access → String → Option Defect

namespace Disk

def refusal? (d : Disk) (access : Access) (path : String) : Option Defect :=
  (d.rejects access path).or (d.bars access (d.real path))

def longestName : Nat := 255

def longestPath : Nat := 4095

def bytes (cs : List Char) : Nat := cs.foldr (fun c n => c.utf8Size + n) 0

/-- A disk without links on which everything may be read and written, as far as names and paths are
not too long. -/
def plain : Disk where
  real path := (Text.stations path).getLastD path
  way path := (Text.stations path).dropLast
  rejects access path :=
    if access != .look && path.toList.contains '\x00' then
      some (.foreign "ValueError" "embedded null byte")
    else if longestPath < bytes path.toList then some (.longName path)
    else none
  bars _ name :=
    if longestName < bytes ((Text.splitAt '/' name.toList).getLastD []) then some (.longName name)
    else none

end Disk

variable {α : Type}

def Folder.passable (d : Disk) (f : Folder α) : List String → Except Fault Bool
  | [] => .ok true
  | name :: rest =>
    match d.bars .look name, f.entry name with
    | some e, _ => .error (.defect e)
    | none, .directory => f.passable d rest
    | none, _ => .ok false

/-- What is found at the end of a path. Nothing is found beyond a directory that is not there. -/
def Folder.look (d : Disk) (f : Folder α) (path : String) : Except Fault (Entry α) :=
  match d.rejects .look path with
  | some e => .error (.defect e)
  | none => do
    if ← f.passable d (d.way path) then
      match d.bars .look (d.real path) with
      | some e => .error (.defect e)
      | none => return f.entry (d.real path)
    else return .absent

/-- The files of a folder while a run writes to it, and the directories that it needed so far, which
may hold no file. -/
structure Worktree (α : Type) where
  files : Folder α
  made : List String := []

namespace Worktree

def entry (t : Worktree α) (name : String) : Entry α :=
  match t.files.entry name with
  | .absent => if t.made.contains name then .directory else .absent
  | e => e

def obstacle? (d : Disk) (t : Worktree α) (path : String) : List String → Option Fault
  | [] => none
  | name :: rest =>
    if t.files.isFile name then
      some (.defect (if rest.isEmpty then .fileInTheWay path else .notADirectory path))
    else
      match d.bars .make name with
      | some e => some (.defect e)
      | none => t.obstacle? d path rest

def isFree (d : Disk) (t : Worktree α) (name : String) : Bool :=
  !t.files.isFile name && (d.bars .make name).isNone

/-- Makes a directory and those on the way to it. Those before an obstacle are made all the same. -/
def makeDirectories (d : Disk) (t : Worktree α) (path : String) (names : List String) :
    Except Fault Unit × Worktree α :=
  match d.rejects .make path with
  | some e => (.error (.defect e), t)
  | none =>
    let t' := { t with made := t.made ++ names.takeWhile (t.isFree d) }
    match t.obstacle? d path names with
    | some e => (.error e, t')
    | none => (.ok (), t')

def write (d : Disk) (t : Worktree α) (path : String) (content : α) :
    Except Fault Unit × Worktree α :=
  match t.makeDirectories d (Text.parentPath path) (d.way path) with
  | (.error e, t) => (.error e, t)
  | (.ok (), t) =>
    match t.entry (d.real path), d.refusal? .create path with
    | .directory, _ => (.error (.defect (.isADirectory path)), t)
    | _, some e => (.error (.defect e), t)
    | _, none => (.ok (), { t with files := t.files.put (d.real path) content })

end Worktree
end SiteVisit
