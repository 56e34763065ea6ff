import SiteVisit.Text.Pattern

namespace SiteVisit.Text

theorem toNat_of_ofNat {n : Nat} {c : Char} (h : Char.ofNat n = c) (hc : c.toNat ≠ 0) :
    c.toNat = n := by
  subst h
  by_cases hvalid : n.isValidChar
  · rw [Char.ofNat, dif_pos hvalid]
    rfl
  · rw [Char.ofNat, dif_neg hvalid] at hc
    exact absurd rfl hc

theorem of_toNat_mem {p : Char → Prop} {codes : List Nat} (h : ∀ n ∈ codes, p (Char.ofNat n))
    {c : Char} (hc : c.toNat ∈ codes) : p c := by
  have hn := h c.toNat hc
  rwa [Char.ofNat_toNat] at hn

section AsciiLower

theorem apply_asciiLower {α : Type} {f : Char → α}
    (h : ∀ i : Fin 26, f (Char.ofNat (65 + i + 32)) = f (Char.ofNat (65 + i))) (c : Char) :
    f (asciiLower c) = f c := by
  rw [asciiLower]
  split
  · next hc =>
    simp only [Bool.and_eq_true, decide_eq_true_eq, Char.le_def, UInt32.le_iff_toNat_le] at hc
    obtain ⟨hlo, hhi⟩ : 65 ≤ c.toNat ∧ c.toNat ≤ 90 := hc
    have hi := h ⟨c.toNat - 65, by omega⟩
    have hn : 65 + (c.toNat - 65) = c.toNat := by omega
    simp only [hn, Char.ofNat_toNat] at hi
    exact hi
  · rfl

theorem lower_asciiLower (c : Char) : lower (asciiLower c) = lower c :=
  apply_asciiLower (by decide) c

theorem foldCase_asciiLower (c : Char) : foldCase (asciiLower c) = foldCase c :=
  apply_asciiLower (by decide) c

theorem eq_of_asciiLower {c l : Char} (hl : l.toNat ≠ 0) (h : asciiLower c = l) :
    c = l ∨ c = Char.ofNat (l.toNat - 32) := by
  rw [asciiLower] at h
  split at h
  · next hc =>
    simp only [Bool.and_eq_true, decide_eq_true_eq, Char.le_def, UInt32.le_iff_toNat_le] at hc
    have hlast : c.toNat ≤ 90 := hc.2
    have hcode : l.toNat = c.toNat + 32 := toNat_of_ofNat h hl
    rw [hcode, Nat.add_sub_cancel, Char.ofNat_toNat]
    exact .inr rfl
  · exact .inl h

end AsciiLower

section Alone

structure StandsAlone (l : Char) : Prop where
  ne_zero : l.toNat ≠ 0
  small : asciiLower l = l
  folded : foldCase l = l
  unshared : l ∉ sharedCapitals.map (·.2)
  unreached : ∀ range ∈ lowerRanges.tail,
    (l.toNat : Int) < range.1 + range.2.2.2 ∨ range.2.1 + range.2.2.2 < (l.toNat : Int)

theorem standsAlone_iff {l : Char} : StandsAlone l ↔ l.toNat ≠ 0 ∧ asciiLower l = l ∧
    foldCase l = l ∧ l ∉ sharedCapitals.map (·.2) ∧ ∀ range ∈ lowerRanges.tail,
      (l.toNat : Int) < range.1 + range.2.2.2 ∨ range.2.1 + range.2.2.2 < (l.toNat : Int) :=
  ⟨fun ⟨hzero, hsmall, hfold, hshared, hranges⟩ => ⟨hzero, hsmall, hfold, hshared, hranges⟩,
    fun ⟨hzero, hsmall, hfold, hshared, hranges⟩ => ⟨hzero, hsmall, hfold, hshared, hranges⟩⟩

instance : DecidablePred StandsAlone := fun _ => decidable_of_iff _ standsAlone_iff.symm

namespace StandsAlone

variable {c l : Char}

theorem eq_of_lowerChar (h : StandsAlone l) (hc : lowerChar c = l) :
    asciiLower c = l := by
  rw [lowerChar] at hc
  split at hc
  · next first last step distance hfind =>
    have hin := List.find?_some hfind
    simp only [Bool.and_eq_true, decide_eq_true_eq] at hin
    obtain ⟨⟨hfirst, hlast⟩, -⟩ := hin
    rcases List.mem_cons.mp (List.mem_of_find?_eq_some hfind) with heq | hmem
    · cases heq
      have hcapital : 'A' ≤ c ∧ c ≤ 'Z' := by
        simp only [Char.le_def, UInt32.le_iff_toNat_le]
        exact ⟨hfirst, hlast⟩
      rw [asciiLower, if_pos (by simpa using hcapital)]
      exact hc
    · have hcode := toNat_of_ofNat hc h.ne_zero
      have hoff := h.unreached _ hmem
      have hpos := h.ne_zero
      dsimp only at hoff
      omega
  · rw [hc, h.small]

theorem sameChar_iff (h : StandsAlone l) :
    Pattern.sameChar true l c = true ↔ asciiLower c = l := by
  simp only [Pattern.sameChar, Bool.true_and, Bool.or_eq_true, beq_iff_eq, h.folded]
  constructor
  · rintro (rfl | hfold)
    · exact h.small
    · apply h.eq_of_lowerChar
      rw [foldCase] at hfold
      cases hlookup : sharedCapitals.lookup (lowerChar c) with
      | none =>
        rw [hlookup] at hfold
        exact hfold.symm
      | some x =>
        rw [hlookup] at hfold
        obtain ⟨before, after, hpairs, -⟩ := List.lookup_eq_some_iff.mp hlookup
        have hmem : (lowerChar c, x) ∈ sharedCapitals := by simp [hpairs]
        exact absurd (List.mem_map.mpr ⟨_, hmem, hfold.symm⟩) h.unshared
  · intro hc
    rw [← foldCase_asciiLower c, hc, h.folded]
    exact .inr rfl

end StandsAlone
end Alone
end SiteVisit.Text
