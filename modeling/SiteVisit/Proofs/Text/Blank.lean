import Mathlib.Data.List.DropRight
import SiteVisit.Text.Blank

namespace SiteVisit.Text

theorem trimChars_eq (cs : List Char) :
    trimChars cs = (cs.dropWhile isBlank).rdropWhile isBlank := rfl

theorem trimChars_isInfix (cs : List Char) : trimChars cs <:+: cs := by
  rw [trimChars_eq]
  exact (List.rdropWhile_prefix _ _).isInfix.trans (List.dropWhile_suffix _).isInfix

theorem trimChars_sublist (cs : List Char) : (trimChars cs).Sublist cs := (trimChars_isInfix cs).sublist

theorem mem_of_mem_trim {c : Char} {s : String} (h : c ∈ (trim s).toList) : c ∈ s.toList := by
  rw [trim, String.toList_ofList] at h
  exact (trimChars_sublist _).subset h

theorem trimStart_of_prefix {cs ds : List Char} (h : cs <+: ds) (hd : trimStart ds = ds) :
    trimStart cs = cs := by
  rw [trimStart, List.dropWhile_eq_self_iff] at *
  intro hc
  have hlen : 0 < ds.length := hc.trans_le h.length_le
  rw [h.getElem hc]
  exact hd hlen

theorem trimChars_trimChars (cs : List Char) : trimChars (trimChars cs) = trimChars cs := by
  have hstart : trimStart (trimChars cs) = trimChars cs :=
    trimStart_of_prefix (List.rdropWhile_prefix _ _) (List.dropWhile_idempotent _ _)
  calc
    trimChars (trimChars cs) = (trimStart (trimChars cs)).rdropWhile isBlank := rfl
    _ = ((cs.dropWhile isBlank).rdropWhile isBlank).rdropWhile isBlank := by
      rw [hstart, trimChars_eq]
    _ = trimChars cs := List.rdropWhile_idempotent _ _

@[simp] theorem trim_trim (s : String) : trim (trim s) = trim s := by
  simp only [trim, String.toList_ofList, trimChars_trimChars]

@[simp] theorem trim_empty : trim "" = "" := rfl

theorem trimChars_eq_nil_iff {cs : List Char} : trimChars cs = [] ↔ ∀ c ∈ cs, isBlank c = true := by
  rw [trimChars_eq, List.rdropWhile_eq_nil_iff]
  refine ⟨fun h c hc => ?_, fun h c hc => h c ((List.dropWhile_sublist _).subset hc)⟩
  rw [← List.takeWhile_append_dropWhile (p := isBlank) (l := cs)] at hc
  exact (List.mem_append.mp hc).elim List.mem_takeWhile_imp (h c)

theorem trim_eq_empty_iff {s : String} : trim s = "" ↔ ∀ c ∈ s.toList, isBlank c = true := by
  rw [trim, ← String.toList_inj, String.toList_ofList, String.toList_empty, trimChars_eq_nil_iff]

theorem trim_join_eq_empty {parts : List String} :
    trim (String.join parts) = "" ↔ ∀ s ∈ parts, trim s = "" := by
  simp only [trim_eq_empty_iff, String.toList_join, List.mem_flatMap]
  exact ⟨fun h s hs c hc => h c ⟨s, hs, hc⟩, fun h c ⟨s, hs, hc⟩ => h s hs c hc⟩

end SiteVisit.Text
