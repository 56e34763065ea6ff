import SiteVisit.Text.Blank

namespace SiteVisit.Text

structure EndsLines (ends : Char → Bool) : Prop where
  feed : ends '\n' = true
  blank : ∀ c, ends c = true → isBlank c = true
  space : ends ' ' = false

def linesBy (ends : Char → Bool) (cs : List Char) : List (List Char) :=
  if cs = [] then [] else cs.splitOnP ends

theorem EndsLines.eq_false {ends : Char → Bool} (h : EndsLines ends) {c : Char}
    (hc : isBlank c = true → c = ' ') : ends c = false := by
  rw [← Bool.not_eq_true]
  intro hend
  rw [hc (h.blank c hend), h.space] at hend
  cases hend

section Lines

variable {ends : Char → Bool} {c : Char} {cs ds line : List Char}

theorem linesBy_of_ne_nil (h : cs ≠ []) : linesBy ends cs = cs.splitOnP ends := if_neg h

theorem linesBy_append (hc : ends c = true) (hcs : cs ≠ []) (hds : ds ≠ []) :
    linesBy ends (cs ++ c :: ds) = linesBy ends cs ++ linesBy ends ds := by
  rw [linesBy_of_ne_nil (by simp), linesBy_of_ne_nil hcs, linesBy_of_ne_nil hds,
    List.splitOnP_append_cons _ _ hc]

theorem linesBy_eq_singleton (hcs : cs ≠ []) (h : ∀ c ∈ cs, ends c = false) :
    linesBy ends cs = [cs] := by
  rw [linesBy_of_ne_nil hcs, List.splitOnP_eq_singleton h]

theorem forall_mem_splitOnP (cs : List Char) :
    ∀ line ∈ cs.splitOnP ends, ∀ c ∈ line, ends c = false := by
  induction cs with
  | nil => simp [List.splitOnP_nil]
  | cons c cs ih =>
    rw [List.splitOnP_cons_eq_if_modifyHead]
    split
    · exact List.forall_mem_cons.mpr ⟨List.forall_mem_nil _, ih⟩
    · next hc =>
      obtain ⟨first, rest, heq⟩ := List.exists_cons_of_ne_nil (List.splitOnP_ne_nil ends cs)
      rw [heq] at ih ⊢
      obtain ⟨hfirst, hrest⟩ := List.forall_mem_cons.mp ih
      exact List.forall_mem_cons.mpr
        ⟨List.forall_mem_cons.mpr ⟨eq_false_of_ne_true hc, hfirst⟩, hrest⟩

theorem ends_of_mem_linesBy (h : line ∈ linesBy ends cs) : ∀ c ∈ line, ends c = false := by
  rw [linesBy] at h
  split at h
  · cases h
  · exact forall_mem_splitOnP cs line h

theorem length_linesBy_pos (hcs : cs ≠ []) : 1 ≤ (linesBy ends cs).length := by
  rw [linesBy_of_ne_nil hcs]
  exact List.length_pos_iff.mpr (List.splitOnP_ne_nil ends cs)

theorem length_linesBy_eq_one_iff (hcs : cs ≠ []) :
    (linesBy ends cs).length = 1 ↔ ∀ c ∈ cs, ends c = false := by
  refine ⟨fun hone c hc => ?_, fun h => by rw [linesBy_eq_singleton hcs h]; rfl⟩
  rw [← Bool.not_eq_true]
  intro hend
  obtain ⟨before, after, rfl⟩ := List.append_of_mem hc
  rw [linesBy_of_ne_nil hcs, List.splitOnP_append_cons _ _ hend, List.length_append] at hone
  have hbefore := List.length_pos_iff.mpr (List.splitOnP_ne_nil ends before)
  have hafter := List.length_pos_iff.mpr (List.splitOnP_ne_nil ends after)
  omega

end Lines

section Counts

variable {α β : Type} {f : α → List β} {items : List α}

theorem length_le_length_flatMap (h : ∀ a ∈ items, 1 ≤ (f a).length) :
    items.length ≤ (items.flatMap f).length := by
  induction items with
  | nil => exact Nat.zero_le 0
  | cons a items ih =>
    obtain ⟨ha, hitems⟩ := List.forall_mem_cons.mp h
    rw [List.flatMap_cons, List.length_append, List.length_cons]
    have hmore := ih hitems
    omega

theorem length_flatMap_eq_iff (h : ∀ a ∈ items, 1 ≤ (f a).length) :
    (items.flatMap f).length = items.length ↔ ∀ a ∈ items, (f a).length = 1 := by
  induction items with
  | nil => simp
  | cons a items ih =>
    obtain ⟨ha, hitems⟩ := List.forall_mem_cons.mp h
    have hmore := length_le_length_flatMap hitems
    rw [List.forall_mem_cons, List.flatMap_cons, List.length_append, List.length_cons]
    refine ⟨fun hall => ⟨by omega, (ih hitems).mp (by omega)⟩, fun ⟨hone, hrest⟩ => ?_⟩
    have hlength := (ih hitems).mpr hrest
    omega

end Counts

end SiteVisit.Text
