import Mathlib.Data.List.TakeWhile
import SiteVisit.Disk
import SiteVisit.Proofs.Folder
import SiteVisit.Proofs.Text.Path

namespace SiteVisit

theorem Disk.bytes_cons (c : Char) (cs : List Char) : bytes (c :: cs) = c.utf8Size + bytes cs := rfl

theorem Disk.bytes_replicate (n : Nat) (c : Char) :
    bytes (List.replicate n c) = n * c.utf8Size := by
  induction n with
  | zero => exact (Nat.zero_mul _).symm
  | succ n ih => rw [List.replicate_succ, bytes_cons, ih, Nat.succ_mul, Nat.add_comm]

theorem Folder.look_of_longName {α : Type} (f : Folder α) {cs : List Char} (hname : Text.IsName cs)
    (hshort : Disk.bytes cs ≤ Disk.longestPath) (hlong : Disk.longestName < Disk.bytes cs) :
    f.look .plain (String.ofList cs) = .error (.defect (.longName (String.ofList cs))) := by
  have hrejects : Disk.plain.rejects .look (String.ofList cs) = none := by
    simp [Disk.plain, Nat.not_lt.mpr hshort]
  have hway : Disk.plain.way (String.ofList cs) = [] := by simp [Disk.plain, hname.stations]
  have hreal : Disk.plain.real (String.ofList cs) = String.ofList cs := by
    simp [Disk.plain, hname.stations]
  have hbars : Disk.plain.bars .look (String.ofList cs) = some (.longName (String.ofList cs)) := by
    simp [Disk.plain, Text.splitAt_of_notMem hname.no_slash, hlong]
  rw [look, hrejects, hway, hreal, hbars]
  rfl

namespace Worktree

variable {α : Type} {d : Disk} {t t' : Worktree α} {path name : String} {names : List String}
  {content : α}

def isDirectory (t : Worktree α) (name : String) : Bool :=
  match t.entry name with
  | .directory => true
  | _ => false

theorem isDirectory_iff : t.isDirectory name = true ↔
    t.files.isFile name = false ∧ (t.files.entry name = .directory ∨ name ∈ t.made) := by
  have hfile : t.files.isFile name = true ↔ ∃ kept, t.files.entry name = .file kept :=
    Folder.isFile_iff_entry
  rw [isDirectory, entry]
  cases hentry : t.files.entry name with
  | absent =>
    have hnot : t.files.isFile name = false := by simp [← Bool.not_eq_true, hfile, hentry]
    by_cases hmade : name ∈ t.made <;> simp [hnot, hmade]
  | directory => simp [← Bool.not_eq_true, hfile, hentry]
  | file kept => simp [hfile.mpr ⟨kept, hentry⟩]

theorem obstacle?_eq_none : t.obstacle? d path names = none ↔
    ∀ name ∈ names, t.files.isFile name = false ∧ d.bars .make name = none := by
  induction names with
  | nil => simp [obstacle?]
  | cons name rest ih =>
    rw [obstacle?, List.forall_mem_cons, ← ih]
    cases t.files.isFile name with
    | true => simp
    | false => cases d.bars .make name <;> simp

theorem obstacle?_congr (h : ∀ name ∈ names, t.files.isFile name = t'.files.isFile name) :
    t.obstacle? d path names = t'.obstacle? d path names := by
  induction names with
  | nil => rfl
  | cons name rest ih =>
    obtain ⟨hname, hrest⟩ := List.forall_mem_cons.mp h
    rw [obstacle?, obstacle?, hname, ih hrest]

def refusal? (d : Disk) (t : Worktree α) (path : String) : Option Fault :=
  match d.rejects .make (Text.parentPath path),
    t.obstacle? d (Text.parentPath path) (d.way path) with
  | some e, _ => some (.defect e)
  | none, some e => some e
  | none, none =>
    if t.isDirectory (d.real path) || (d.way path).contains (d.real path) then
      some (.defect (.isADirectory path))
    else (d.refusal? .create path).map .defect

def cleared (d : Disk) (t : Worktree α) (path : String) : Worktree α :=
  (t.makeDirectories d (Text.parentPath path) (d.way path)).2

@[simp] theorem files_cleared : (t.cleared d path).files = t.files := by
  rw [cleared, makeDirectories]
  cases d.rejects .make (Text.parentPath path) with
  | some e => rfl
  | none => cases t.obstacle? d (Text.parentPath path) (d.way path) <;> rfl

theorem mem_made_cleared (h : name ∈ (t.cleared d path).made) :
    name ∈ t.made ∨ name ∈ d.way path := by
  rw [cleared, makeDirectories] at h
  cases hrejects : d.rejects .make (Text.parentPath path) with
  | some e =>
    rw [hrejects] at h
    exact .inl h
  | none =>
    have hmade : name ∈ t.made ++ (d.way path).takeWhile (t.isFree d) := by
      cases hobstacle : t.obstacle? d (Text.parentPath path) (d.way path) <;>
        simpa [hrejects, hobstacle] using h
    exact (List.mem_append.mp hmade).imp_right fun h => (List.takeWhile_prefix _).subset h

theorem cleared_of_clear (hrejects : d.rejects .make (Text.parentPath path) = none)
    (hclear : t.obstacle? d (Text.parentPath path) (d.way path) = none) :
    t.cleared d path = { t with made := t.made ++ d.way path } := by
  have hfree : (d.way path).takeWhile (t.isFree d) = d.way path := by
    refine List.takeWhile_eq_self_iff.mpr fun name hname => ?_
    obtain ⟨hfile, hbars⟩ := obstacle?_eq_none.mp hclear name hname
    simp [isFree, hfile, hbars]
  simp [cleared, makeDirectories, hrejects, hclear, hfree]

theorem isDirectory_cleared (hrejects : d.rejects .make (Text.parentPath path) = none)
    (hclear : t.obstacle? d (Text.parentPath path) (d.way path) = none) :
    (t.cleared d path).isDirectory name = (t.isDirectory name || (d.way path).contains name) := by
  have hway (hname : name ∈ d.way path) : t.files.isFile name = false :=
    (obstacle?_eq_none.mp hclear name hname).1
  rw [cleared_of_clear hrejects hclear, Bool.eq_iff_iff, Bool.or_eq_true, isDirectory_iff,
    isDirectory_iff, List.contains_iff_mem]
  rw [List.mem_append, ← or_assoc, and_or_left]
  exact or_congr_right ⟨And.right, fun hname => ⟨hway hname, hname⟩⟩

theorem write_eq (d : Disk) (t : Worktree α) (path : String) (content : α) :
    t.write d path content =
      match t.refusal? d path with
      | some e => (.error e, t.cleared d path)
      | none => (.ok (), { t.cleared d path with files := t.files.put (d.real path) content }) := by
  have hmake : t.makeDirectories d (Text.parentPath path) (d.way path) =
      (match d.rejects .make (Text.parentPath path),
        t.obstacle? d (Text.parentPath path) (d.way path) with
      | some e, _ => .error (.defect e)
      | none, some e => .error e
      | none, none => .ok (), t.cleared d path) := by
    rw [cleared, makeDirectories]
    cases d.rejects .make (Text.parentPath path) with
    | some e => rfl
    | none => cases t.obstacle? d (Text.parentPath path) (d.way path) <;> rfl
  rw [write, hmake, refusal?]
  cases hrejects : d.rejects .make (Text.parentPath path) with
  | some e => rfl
  | none =>
    cases hclear : t.obstacle? d (Text.parentPath path) (d.way path) with
    | some e => rfl
    | none =>
      dsimp only
      rw [← isDirectory_cleared hrejects hclear, isDirectory]
      cases (t.cleared d path).entry (d.real path) <;>
        cases d.refusal? .create path <;> simp

structure Writable (d : Disk) (t : Worktree α) (path : String) : Prop where
  taken : d.rejects .make (Text.parentPath path) = none
  way : ∀ name ∈ d.way path, t.files.isFile name = false ∧ d.bars .make name = none
  free : t.isDirectory (d.real path) = false
  off_way : d.real path ∉ d.way path
  creatable : d.refusal? .create path = none

theorem refusal?_eq_none : t.refusal? d path = none ↔ Writable d t path := by
  rw [refusal?]
  constructor
  · intro h
    split at h
    · cases h
    · cases h
    · next hrejects hclear =>
      split at h
      · cases h
      · next hfree =>
        simp only [Bool.or_eq_true, not_or, Bool.not_eq_true, List.contains_eq_mem,
          decide_eq_false_iff_not] at hfree
        exact ⟨hrejects, obstacle?_eq_none.mp hclear, hfree.1, hfree.2, Option.map_eq_none_iff.mp h⟩
  · rintro ⟨hrejects, hway, hfree, hoff, hcreate⟩
    simp [hrejects, obstacle?_eq_none.mpr hway, hfree, hoff, hcreate]

/-- A file at the one path is in the way of one at the other: it stands where a directory of that
file must be, or that file stands where a directory above it must be. -/
def Blocks (d : Disk) (other path : String) : Prop :=
  d.real other ∈ d.way path ∨ (d.real path ++ "/").isPrefixOf (d.real other) = true ∨
    d.real path ∈ d.way other

theorem refusal?_congr (hway : ∀ name ∈ d.way path, t.files.isFile name = t'.files.isFile name)
    (hdirectory : t.isDirectory (d.real path) = t'.isDirectory (d.real path)) :
    t.refusal? d path = t'.refusal? d path := by
  rw [refusal?, refusal?, obstacle?_congr hway, hdirectory]

theorem isDirectory_mono (hown : t.files.isFile name = t'.files.isFile name)
    (hfiles : ∀ other, t.files.isFile other = true → t'.files.isFile other = true)
    (hmade : ∀ other ∈ t.made, other ∈ t'.made) (h : t.isDirectory name = true) :
    t'.isDirectory name = true := by
  obtain ⟨hfile, hname⟩ := isDirectory_iff.mp h
  refine isDirectory_iff.mpr ⟨hown ▸ hfile, hname.imp (fun hentry => ?_) (hmade name)⟩
  obtain ⟨-, hstands⟩ := Folder.entry_eq_directory.mp hentry
  exact Folder.entry_eq_directory.mpr ⟨hown ▸ hfile, hstands.imp_right fun ⟨other, hother, hprefix⟩ =>
    ⟨other, hfiles other hother, hprefix⟩⟩

/-- What can be written among more files can be written among fewer. -/
theorem Writable.of_subset (hown : t.files.isFile (d.real path) = t'.files.isFile (d.real path))
    (hfiles : ∀ other, t.files.isFile other = true → t'.files.isFile other = true)
    (hmade : ∀ other ∈ t.made, other ∈ t'.made) (h : Writable d t' path) : Writable d t path where
  taken := h.taken
  way name hname := by
    obtain ⟨hfile, hbars⟩ := h.way name hname
    exact ⟨Bool.eq_false_iff.mpr fun hother => Bool.eq_false_iff.mp hfile (hfiles name hother), hbars⟩
  free := Bool.eq_false_iff.mpr fun hdirectory =>
    Bool.eq_false_iff.mp h.free (isDirectory_mono hown hfiles hmade hdirectory)
  off_way := h.off_way
  creatable := h.creatable

end Worktree
end SiteVisit
