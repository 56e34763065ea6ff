import Mathlib.Data.Nat.Digits.Defs
import SiteVisit.Text.Digit
import SiteVisit.Text.Quoted
import SiteVisit.Text.Units

namespace SiteVisit.Text

theorem toNat_not_surrogate (c : Char) : c.toNat < 0xd800 ∨ 0xdfff < c.toNat ∧ c.toNat < 0x110000 := by
  have h := c.valid
  simp only [UInt32.isValidChar, Nat.isValidChar] at h
  simp only [Char.toNat]
  omega

theorem lt_of_mem_units {c : Char} {u : Nat} (h : u ∈ units c) : u < 0x10000 := by
  have hc := toNat_not_surrogate c
  rw [units] at h
  split at h
  · simp only [List.mem_singleton] at h
    omega
  · simp only [List.mem_cons, List.not_mem_nil, or_false] at h
    omega

theorem ofUnits?_cons {u : Nat} (hhigh : isHighSurrogate u = false) (hlow : isLowSurrogate u = false)
    (us : List Nat) : ofUnits? (u :: us) = (ofUnits? us).map (Char.ofNat u :: ·) := by
  cases us with
  | nil => simp [ofUnits?, hhigh, hlow]
  | cons v rest => simp [ofUnits?, hhigh, hlow]

theorem ofUnits?_units_append (c : Char) (us : List Nat) :
    ofUnits? (units c ++ us) = (ofUnits? us).map (c :: ·) := by
  have hc := toNat_not_surrogate c
  rw [units]
  split
  · have hhigh : isHighSurrogate c.toNat = false := by
      simp only [isHighSurrogate, Bool.and_eq_false_iff, decide_eq_false_iff_not]
      omega
    have hlow : isLowSurrogate c.toNat = false := by
      simp only [isLowSurrogate, Bool.and_eq_false_iff, decide_eq_false_iff_not]
      omega
    rw [List.singleton_append, ofUnits?_cons hhigh hlow, Char.ofNat_toNat]
  · have hhigh : isHighSurrogate (0xd800 + (c.toNat - 0x10000) / 0x400) = true := by
      simp only [isHighSurrogate, Bool.and_eq_true, decide_eq_true_eq]
      omega
    have hlow : isLowSurrogate (0xdc00 + (c.toNat - 0x10000) % 0x400) = true := by
      simp only [isLowSurrogate, Bool.and_eq_true, decide_eq_true_eq]
      omega
    have hsum : 0x10000 + (0xd800 + (c.toNat - 0x10000) / 0x400 - 0xd800) * 0x400 +
        (0xdc00 + (c.toNat - 0x10000) % 0x400 - 0xdc00) = c.toNat := by
      omega
    rw [List.cons_append, List.cons_append, List.nil_append, ofUnits?, if_pos hhigh, if_pos hlow,
      ofSurrogates, hsum, Char.ofNat_toNat]

theorem ofUnits?_flatMap_units (cs : List Char) : ofUnits? (cs.flatMap units) = some cs := by
  induction cs with
  | nil => rfl
  | cons c cs ih => rw [List.flatMap_cons, ofUnits?_units_append, ih, Option.map_some]

theorem hexDigit?_digitChar {d : Nat} (hd : d < 16) : hexDigit? (Nat.digitChar d) = some d := by
  have hall : ∀ d : Fin 16, hexDigit? (Nat.digitChar d) = some d.val := by decide
  exact hall ⟨d, hd⟩

theorem hex_four {u : Nat} (hu : u < 0x10000) :
    hex 4 u = [Nat.digitChar (u / 16 / 16 / 16), Nat.digitChar (u / 16 / 16 % 16),
      Nat.digitChar (u / 16 % 16), Nat.digitChar (u % 16)] := by
  have hstep {n : Nat} (h : 16 ≤ n) :
      Nat.toDigits 16 n = Nat.toDigits 16 (n / 16) ++ [Nat.digitChar (n % 16)] :=
    Nat.toDigits_of_base_le (by omega) h
  have hlast {n : Nat} (h : n < 16) : Nat.toDigits 16 n = [Nat.digitChar n] :=
    Nat.toDigits_of_lt_base h
  have hzero {n : Nat} (h : n < 16) : n / 16 = 0 := Nat.div_eq_of_lt h
  rw [hex]
  by_cases h1 : u < 16
  · rw [hlast h1, hzero h1, Nat.mod_eq_of_lt h1]
    rfl
  rw [hstep (by omega)]
  by_cases h2 : u / 16 < 16
  · rw [hlast h2, hzero h2, Nat.mod_eq_of_lt h2]
    rfl
  rw [hstep (by omega)]
  by_cases h3 : u / 16 / 16 < 16
  · rw [hlast h3, hzero h3, Nat.mod_eq_of_lt h3]
    rfl
  rw [hstep (by omega), hlast (by omega)]
  rfl

end SiteVisit.Text
