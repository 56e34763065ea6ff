import SiteVisit.Proofs.Folder
import SiteVisit.Proofs.Outcome
import SiteVisit.Proofs.Text.Path
import SiteVisit.Store.Place

namespace SiteVisit.Store

variable {α : Type} {f : Folder α} {isStore : α → Bool} {path : String} {content : α}

theorem requireWritable_ok (h : requireWritable f isStore path = .ok ()) :
    f.makeDirectory (Text.parentPath path) = .ok () ∧ f.entry path ≠ .directory := by
  obtain ⟨_, hdirectory, hentry⟩ := bind_eq_ok.mp h
  refine ⟨hdirectory, fun heq => ?_⟩
  rw [heq] at hentry
  cases hentry

theorem parentPath_free (hdirectory : f.makeDirectory (Text.parentPath path) = .ok ())
    (hentry : f.entry path ≠ .directory) :
    path ≠ Text.parentPath path ∧ (path ++ "/").isPrefixOf (Text.parentPath path) = false := by
  by_cases hfile : f.isFile path = true
  · obtain ⟨file, hmem, rfl⟩ := Folder.isFile_iff.mp hfile
    exact Folder.makeDirectory_eq_ok.mp hdirectory file hmem
  · have hstanding : Text.isStanding path = false :=
      Bool.eq_false_iff.mpr fun hstanding => hentry (Folder.entry_of_isStanding hfile hstanding)
    obtain ⟨hne, hprefix⟩ := Text.parentPath_above hstanding
    exact ⟨hne.symm, hprefix⟩

theorem requireWritable_put (h : requireWritable f isStore path = .ok ())
    (hcontent : isStore content = true) :
    requireWritable (f.put path content) isStore path = .ok () := by
  obtain ⟨hdirectory, hentry⟩ := requireWritable_ok h
  have hput : (f.put path content).makeDirectory (Text.parentPath path) = .ok () := by
    apply Folder.makeDirectory_eq_ok.mpr
    intro file hfile
    rcases f.names_put path content file hfile with hname | ⟨old, hold, hname⟩
    · rw [hname]
      exact parentPath_free hdirectory hentry
    · rw [← hname]
      exact Folder.makeDirectory_eq_ok.mp hdirectory old hold
  rw [requireWritable, hput, ok_bind, Folder.entry_put]
  exact if_pos hcontent

end SiteVisit.Store
