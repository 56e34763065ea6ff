import SiteVisit.Command.Render
import SiteVisit.Proofs.Disk
import SiteVisit.Proofs.Outcome

namespace SiteVisit

theorem Fault.severity_cases (e : Fault) :
    (∃ p, e = .problem p) ∧ e.asMessage.severity = .error ∨
      (∀ p, e ≠ .problem p) ∧ e.asMessage.severity = .codeError := by
  cases e with
  | problem p => exact .inl ⟨⟨p, rfl⟩, rfl⟩
  | misuse m => exact .inr ⟨fun p h => (by cases h), rfl⟩
  | defect d => exact .inr ⟨fun p h => (by cases h), rfl⟩

namespace Command

open Documents (Document)
open Worktree (Blocks Writable)

variable {disk : Disk} {job : Job} {v : Visit} {settings : DocumentSettings}
  {t found : Worktree FileContent} {path : String} {d : Document} {content : FileContent}

section Saving

theorem save_eq (disk : Disk) (t : Worktree FileContent) (path : String) (d : Document) :
    save disk t path d =
      match t.refusal? disk path with
      | some e => (.error e, t.cleared disk path)
      | none =>
        (if d.links.all Documents.isWritable then .ok () else .error (.defect .unwritable),
          { t.cleared disk path with files := t.files.put (disk.real path) (.document d) }) := by
  rw [save, t.write_eq]
  cases t.refusal? disk path <;> rfl

theorem save_eq_ok : (save disk t path d).1 = .ok () ↔
    Writable disk t path ∧ d.links.all Documents.isWritable = true := by
  rw [save_eq, ← Worktree.refusal?_eq_none]
  cases t.refusal? disk path with
  | some e => simp
  | none => simp

theorem entry_save_of_ne {other : String} (h : other ≠ disk.real path) :
    (save disk t path d).2.files.entry other = .file content ↔
      t.files.entry other = .file content := by
  rw [save_eq]
  cases t.refusal? disk path with
  | some e => simp
  | none => exact t.files.entry_put_of_ne h content

theorem entry_save (h : (save disk t path d).1 = .ok ()) :
    (save disk t path d).2.files.entry (disk.real path) = .file (.document d) := by
  rw [save_eq, Worktree.refusal?_eq_none.mpr (save_eq_ok.mp h).1]
  exact t.files.entry_put (disk.real path) _

theorem isFile_save {other : String} (h : t.files.isFile other = true) :
    (save disk t path d).2.files.isFile other = true := by
  rw [save_eq]
  cases t.refusal? disk path with
  | some e => simpa using h
  | none => exact Folder.isFile_put.mpr (.inl h)

theorem mem_made_save {name : String} (h : name ∈ (save disk t path d).2.made) :
    name ∈ t.made ∨ name ∈ disk.way path := by
  rw [save_eq] at h
  split at h
  · exact Worktree.mem_made_cleared h
  · exact Worktree.mem_made_cleared h

end Saving

namespace Job

variable (job v settings)

def generated : Except Fault Document × List Message := (job.generate v settings).outcome []

variable (disk)

def fault? (found : Worktree FileContent) : Option Fault :=
  match (job.generated v settings).1 with
  | .error e => some e
  | .ok d =>
    match (save disk found job.output d).1 with
    | .error e => some e
    | .ok () => none

def outcome (found : Worktree FileContent) : Outcome where
  name := job.name
  output := job.output
  messages :=
    (job.generated v settings).2 ++ (job.fault? disk v settings found).toList.map Fault.asMessage
  succeeded := (job.fault? disk v settings found).isNone

def leave (found : Worktree FileContent) : Worktree FileContent :=
  match (job.generated v settings).1 with
  | .error _ => found
  | .ok d => (save disk found job.output d).2

theorem run_eq (found : Worktree FileContent) : job.run disk v settings found =
    (job.outcome disk v settings found, job.leave disk v settings found) := by
  rw [run, collecting, outcome, leave, fault?, generated]
  rcases (job.generate v settings).outcome [] with ⟨e | d, said⟩
  · rfl
  · simp only [collecting, Reporting.outcome_ofExcept]
    rcases save disk found job.output d with ⟨e | ⟨⟩, files⟩
    · rfl
    · simp

variable {job v settings disk}

theorem fault?_eq_none : job.fault? disk v settings found = none ↔
    ∃ d, (job.generated v settings).1 = .ok d ∧ (save disk found job.output d).1 = .ok () := by
  rw [fault?]
  cases (job.generated v settings).1 with
  | error e => simp
  | ok d => rcases hsaved : (save disk found job.output d).1 with e | ⟨⟩ <;> simp [hsaved]

theorem fault?_eq_some {e : Fault} : job.fault? disk v settings found = some e ↔
    (job.generated v settings).1 = .error e ∨
      ∃ d, (job.generated v settings).1 = .ok d ∧ (save disk found job.output d).1 = .error e := by
  rw [fault?]
  cases (job.generated v settings).1 with
  | error e => simp
  | ok d => rcases hsaved : (save disk found job.output d).1 with e | ⟨⟩ <;> simp [hsaved]

theorem fault?_eq_none_of_subset
    (hown : t.files.isFile (disk.real job.output) = found.files.isFile (disk.real job.output))
    (hfiles : ∀ other, t.files.isFile other = true → found.files.isFile other = true)
    (hmade : ∀ other ∈ t.made, other ∈ found.made)
    (hfound : job.fault? disk v settings found = none) : job.fault? disk v settings t = none := by
  obtain ⟨d, hd, hsave⟩ := fault?_eq_none.mp hfound
  obtain ⟨hwritable, hlinks⟩ := save_eq_ok.mp hsave
  exact fault?_eq_none.mpr
    ⟨d, hd, save_eq_ok.mpr ⟨hwritable.of_subset hown hfiles hmade, hlinks⟩⟩

/-- What is not in the way of its document does not change what is told of a job. -/
theorem outcome_congr
    (hway : ∀ name ∈ disk.way job.output, t.files.isFile name = found.files.isFile name)
    (hdirectory : t.isDirectory (disk.real job.output) =
      found.isDirectory (disk.real job.output)) :
    job.outcome disk v settings t = job.outcome disk v settings found := by
  have hfault : job.fault? disk v settings t = job.fault? disk v settings found := by
    simp only [fault?, save_eq, Worktree.refusal?_congr hway hdirectory]
    cases (job.generated v settings).1 with
    | error e => rfl
    | ok d => cases found.refusal? disk job.output <;> rfl
  rw [outcome, outcome, hfault]

end Job
end Command
end SiteVisit
