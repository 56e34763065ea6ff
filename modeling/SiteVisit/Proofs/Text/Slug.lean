import SiteVisit.Proofs.Text.Blank
import SiteVisit.Text.Slug

namespace SiteVisit.Text

def isLatin (c : Char) : Bool := ('a' ≤ c && c ≤ 'z') || ('0' ≤ c && c ≤ '9')

def latinName (s : String) : List Char := (s.toList.flatMap lower).filter isLatin

section Unseen

variable {p : Char → Bool} (hblank : ∀ c, isBlank c = true → p c = false)
include hblank

theorem filter_trimStart (cs : List Char) : (trimStart cs).filter p = cs.filter p := by
  induction cs with
  | nil => rfl
  | cons c cs ih =>
    by_cases hc : isBlank c = true
    · rw [trimStart, List.dropWhile_cons_of_pos hc,
        List.filter_cons_of_neg (Bool.not_eq_true _ ▸ hblank c hc)]
      exact ih
    · rw [trimStart, List.dropWhile_cons_of_neg hc]

theorem filter_trimChars (cs : List Char) : (trimChars cs).filter p = cs.filter p := by
  rw [trimChars, List.filter_reverse, filter_trimStart hblank, List.filter_reverse,
    List.reverse_reverse, filter_trimStart hblank]

theorem filter_squeezeFrom {fill : Char} (hfill : p fill = false) (inRun : Bool) (cs : List Char) :
    (squeezeFrom fill inRun cs).filter p = cs.filter p := by
  induction cs generalizing inRun with
  | nil => rfl
  | cons c cs ih =>
    rw [squeezeFrom]
    by_cases hc : isBlank c = true
    · rw [if_pos hc, List.filter_cons_of_neg (Bool.not_eq_true _ ▸ hblank c hc)]
      cases inRun with
      | true => exact ih true
      | false =>
        rw [if_neg Bool.false_ne_true, List.filter_cons_of_neg (Bool.not_eq_true _ ▸ hfill)]
        exact ih true
    · rw [if_neg hc, List.filter_cons, List.filter_cons, ih]

end Unseen

theorem isLatin_of_isBlank (c : Char) (h : isBlank c = true) : isLatin c = false := by
  rw [isBlank] at h
  simp only [Bool.or_eq_true, Bool.and_eq_true, decide_eq_true_eq, beq_iff_eq] at h
  rw [← Bool.not_eq_true, isLatin]
  simp only [Bool.or_eq_true, Bool.and_eq_true, decide_eq_true_eq, Char.le_def, UInt32.le_iff_toNat_le]
  simp only [Char.toNat] at h
  have ha : 'a'.val.toNat = 97 := rfl
  have hz : 'z'.val.toNat = 122 := rfl
  have h0 : '0'.val.toNat = 48 := rfl
  have h9 : '9'.val.toNat = 57 := rfl
  omega

theorem filter_slug (s : String) : (slug s).toList.filter isLatin = latinName s := by
  have hkept : ∀ c, (isLatin c && isSlugChar c) = isLatin c := by
    intro c
    rw [Bool.and_eq_left_iff_imp]
    exact fun h => Bool.or_eq_true_iff.mpr (.inl h)
  rw [slug, String.toList_ofList, slugChars, squeeze,
    filter_squeezeFrom isLatin_of_isBlank (by decide), filter_trimChars isLatin_of_isBlank,
    List.filter_filter, latinName]
  exact List.filter_congr fun c _ => hkept c

theorem latinName_eq_of_slug_eq {s t : String} (h : slug s = slug t) : latinName s = latinName t := by
  rw [← filter_slug, ← filter_slug, h]

end SiteVisit.Text
