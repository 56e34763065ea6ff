import Mathlib.Order.Monotone.Basic
import SiteVisit.Calendar.Date

namespace SiteVisit.Calendar

attribute [ext] Date

def lastOrdinal : Nat := 3652059

theorem isLeap_iff (year : Nat) :
    isLeap year = true ↔ year % 4 = 0 ∧ (year % 100 ≠ 0 ∨ year % 400 = 0) := by
  simp only [isLeap, Bool.and_eq_true, Bool.or_eq_true, beq_iff_eq, bne_iff_ne]

theorem daysBeforeYear_succ (year : Nat) (h : 1 ≤ year) :
    daysBeforeYear (year + 1) = daysBeforeYear year + 365 + if isLeap year then 1 else 0 := by
  obtain ⟨y, rfl⟩ : ∃ y, year = y + 1 := ⟨year - 1, by omega⟩
  have h4 : (y + 1) / 4 = y / 4 + if (y + 1) % 4 = 0 then 1 else 0 := by split <;> omega
  have h100 : (y + 1) / 100 = y / 100 + if (y + 1) % 100 = 0 then 1 else 0 := by split <;> omega
  have h400 : (y + 1) / 400 = y / 400 + if (y + 1) % 400 = 0 then 1 else 0 := by split <;> omega
  have hsub : y / 100 ≤ y / 4 := Nat.div_le_div_left (by omega) (by omega)
  have hleap := isLeap_iff (y + 1)
  simp only [daysBeforeYear, Nat.add_sub_cancel, h4, h100, h400]
  by_cases hcentury : (y + 1) % 100 = 0
  · have hfour : (y + 1) % 4 = 0 := by omega
    by_cases hfourth : (y + 1) % 400 = 0
    · simp only [hfour, hcentury, hfourth, hleap.mpr ⟨hfour, .inr hfourth⟩, if_true]
      omega
    · have hno : isLeap (y + 1) = false :=
        Bool.eq_false_iff.mpr fun h => (hleap.mp h).2.elim (· hcentury) hfourth
      simp only [hfour, hcentury, hfourth, hno, Bool.false_eq_true, if_true, if_false]
      omega
  · have hfourth : ¬ (y + 1) % 400 = 0 := by omega
    by_cases hfour : (y + 1) % 4 = 0
    · simp only [hfour, hcentury, hfourth, hleap.mpr ⟨hfour, .inl hcentury⟩, if_true, if_false]
      omega
    · have hno : isLeap (y + 1) = false := Bool.eq_false_iff.mpr fun h => hfour (hleap.mp h).1
      simp only [hfour, hcentury, hfourth, hno, Bool.false_eq_true, if_false]
      omega

theorem daysBeforeMonth_succ (year month : Nat) (h : 1 ≤ month) :
    daysBeforeMonth year (month + 1) = daysBeforeMonth year month + daysInMonth year month := by
  cases month with
  | zero => omega
  | succ month => rfl

theorem daysBeforeMonth_thirteen (year : Nat) :
    daysBeforeMonth year 13 = 365 + if isLeap year then 1 else 0 := by
  simp only [daysBeforeMonth, daysInMonth]
  cases isLeap year <;> rfl

theorem daysBeforeMonth_monotone (year : Nat) : Monotone (daysBeforeMonth year) := by
  apply monotone_nat_of_le_succ
  intro month
  cases month with
  | zero => exact Nat.le_refl 0
  | succ month => exact Nat.le_add_right _ _

theorem daysBeforeYear_monotone : Monotone daysBeforeYear := by
  apply monotone_nat_of_le_succ
  intro year
  cases year with
  | zero => decide
  | succ year =>
    rw [daysBeforeYear_succ (year + 1) (by omega)]
    omega

namespace Date

/-- The search ends at the last year that begins before a day, if it starts at one and that year
is within reach. -/
theorem climbYears_spec {n year : Nat} (steps : Nat) (hstart : daysBeforeYear year < n)
    (hreach : n ≤ daysBeforeYear (year + steps + 1)) :
    year ≤ climbYears n steps year ∧ daysBeforeYear (climbYears n steps year) < n ∧
      n ≤ daysBeforeYear (climbYears n steps year + 1) := by
  induction steps generalizing year with
  | zero => exact ⟨Nat.le_refl year, hstart, hreach⟩
  | succ steps ih =>
    rw [climbYears]
    split
    · next hnext =>
      obtain ⟨hle, hlow, hhigh⟩ :=
        ih hnext (by rwa [show year + 1 + steps + 1 = year + (steps + 1) + 1 by omega])
      exact ⟨by omega, hlow, hhigh⟩
    · next hnext => exact ⟨Nat.le_refl year, hstart, by omega⟩

theorem climbMonths_spec {year n month : Nat} (steps : Nat) (hstart : daysBeforeMonth year month < n)
    (hreach : n ≤ daysBeforeMonth year (month + steps + 1)) :
    month ≤ climbMonths year n steps month ∧ climbMonths year n steps month ≤ month + steps ∧
      daysBeforeMonth year (climbMonths year n steps month) < n ∧
      n ≤ daysBeforeMonth year (climbMonths year n steps month + 1) := by
  induction steps generalizing month with
  | zero => exact ⟨Nat.le_refl month, Nat.le_refl month, hstart, hreach⟩
  | succ steps ih =>
    rw [climbMonths]
    split
    · next hnext =>
      obtain ⟨hle, hge, hlow, hhigh⟩ :=
        ih hnext (by rwa [show month + 1 + steps + 1 = month + (steps + 1) + 1 by omega])
      exact ⟨by omega, by omega, hlow, hhigh⟩
    · next hnext => exact ⟨Nat.le_refl month, by omega, hstart, by omega⟩

def last : Date := ⟨9999, 12, 31, by decide, by decide, by decide⟩

theorem exists_ofParts? {year month day : Nat} (hyear : 1 ≤ year ∧ year ≤ 9999)
    (hmonth : 1 ≤ month ∧ month ≤ 12) (hday : 1 ≤ day ∧ day ≤ daysInMonth year month) :
    ofParts? year month day = some ⟨year, month, day, hyear, hmonth, hday⟩ := by
  rw [ofParts?, dif_pos hyear, dif_pos hmonth, dif_pos hday]

theorem exists_ofOrdinal? {n : Nat} (hfirst : 1 ≤ n) (hlast : n ≤ lastOrdinal) :
    ∃ d, ofOrdinal? n = some d ∧ d.ordinal = n := by
  have hstart : daysBeforeYear ((n - 1) / 366 + 1) < n := by
    simp only [daysBeforeYear]
    omega
  have hreach : n ≤ daysBeforeYear ((n - 1) / 366 + 1 + 31 + 1) := by
    simp only [daysBeforeYear, lastOrdinal] at *
    omega
  obtain ⟨hle, hlow, hhigh⟩ := climbYears_spec 31 hstart hreach
  rw [ofOrdinal?]
  generalize climbYears n 31 ((n - 1) / 366 + 1) = year at *
  have hyear : 1 ≤ year ∧ year ≤ 9999 := by
    refine ⟨by omega, ?_⟩
    by_contra hbig
    have hmono : daysBeforeYear 10000 ≤ daysBeforeYear year := daysBeforeYear_monotone (by omega)
    have hend : daysBeforeYear 10000 = lastOrdinal := by decide
    omega
  have hdays : daysBeforeYear (year + 1) = daysBeforeYear year + daysBeforeMonth year 13 := by
    rw [daysBeforeYear_succ year hyear.1, daysBeforeMonth_thirteen, Nat.add_assoc]
  obtain ⟨hmle, hmge, hmlow, hmhigh⟩ := climbMonths_spec 11
    (show daysBeforeMonth year 1 < n - daysBeforeYear year by simp only [daysBeforeMonth]; omega)
    (show n - daysBeforeYear year ≤ daysBeforeMonth year 13 by omega)
  generalize climbMonths year (n - daysBeforeYear year) 11 1 = month at *
  rw [daysBeforeMonth_succ year month hmle] at hmhigh
  exact ⟨_, exists_ofParts? hyear ⟨hmle, hmge⟩ ⟨by omega, by omega⟩, by simp only [ordinal]; omega⟩

theorem daysBeforeMonth_add_day_le (d : Date) :
    daysBeforeMonth d.year d.month + d.day ≤ daysBeforeMonth d.year (d.month + 1) := by
  rw [daysBeforeMonth_succ d.year d.month d.month_range.1]
  exact Nat.add_le_add_left d.day_range.2 _

theorem ordinal_le (d : Date) : d.ordinal ≤ daysBeforeYear (d.year + 1) := by
  have hday := daysBeforeMonth_add_day_le d
  have hmonth : daysBeforeMonth d.year (d.month + 1) ≤ daysBeforeMonth d.year 13 :=
    daysBeforeMonth_monotone d.year (Nat.succ_le_succ d.month_range.2)
  rw [daysBeforeYear_succ d.year d.year_range.1, Nat.add_assoc, ← daysBeforeMonth_thirteen, ordinal]
  omega

theorem one_le_ordinal (d : Date) : 1 ≤ d.ordinal := by
  have hday := d.day_range.1
  rw [ordinal]
  omega

theorem eq_first_of_ordinal {d : Date} (h : d.ordinal = 1) : d = first := by
  have hday := d.day_range.1
  have hyear : d.year < 2 := by
    by_contra hbig
    have hmono : daysBeforeYear 2 ≤ daysBeforeYear d.year := daysBeforeYear_monotone (by omega)
    have htwo : daysBeforeYear 2 = 365 := by decide
    rw [ordinal] at h
    omega
  have hmonth : d.month < 2 := by
    by_contra hbig
    have hmono : daysBeforeMonth d.year 2 ≤ daysBeforeMonth d.year d.month :=
      daysBeforeMonth_monotone d.year (by omega)
    have htwo : daysBeforeMonth d.year 2 = 31 := rfl
    rw [ordinal] at h
    omega
  have hyears := d.year_range
  have hmonths := d.month_range
  rw [ordinal] at h
  exact Date.ext (show d.year = 1 by omega) (show d.month = 1 by omega) (show d.day = 1 by omega)

theorem eq_last_of_ordinal {d : Date} (h : lastOrdinal ≤ d.ordinal) : d = last := by
  have hyear : d.year = 9999 := by
    by_contra hother
    have hmono : daysBeforeYear (d.year + 1) ≤ daysBeforeYear 9999 :=
      daysBeforeYear_monotone (by have := d.year_range; omega)
    have hlast : daysBeforeYear 9999 < lastOrdinal := by decide
    have hle := d.ordinal_le
    omega
  have hbefore : daysBeforeYear 9999 + 365 = lastOrdinal := by decide
  have hday := daysBeforeMonth_add_day_le d
  rw [ordinal] at h
  rw [hyear] at h hday
  have hmonth : d.month = 12 := by
    by_contra hother
    have hmono : daysBeforeMonth 9999 (d.month + 1) ≤ daysBeforeMonth 9999 12 :=
      daysBeforeMonth_monotone 9999 (by have := d.month_range; omega)
    have htwelve : daysBeforeMonth 9999 12 = 334 := by decide
    omega
  rw [hmonth] at h hday
  have htwelve : daysBeforeMonth 9999 12 = 334 := by decide
  have hthirteen : daysBeforeMonth 9999 (12 + 1) = 365 := by decide
  exact Date.ext hyear hmonth (show d.day = 31 by omega)

theorem ordinal_le_lastOrdinal (d : Date) : d.ordinal ≤ lastOrdinal := by
  have hmono : daysBeforeYear (d.year + 1) ≤ daysBeforeYear 10000 :=
    daysBeforeYear_monotone (Nat.succ_le_succ d.year_range.2)
  have hend : daysBeforeYear 10000 = lastOrdinal := by decide
  exact d.ordinal_le.trans (hend ▸ hmono)

theorem ordinal_inner {d : Date} (hfirst : d ≠ first) (hlast : d ≠ last) :
    1 < d.ordinal ∧ d.ordinal < lastOrdinal :=
  ⟨Nat.lt_of_le_of_ne d.one_le_ordinal fun h => hfirst (eq_first_of_ordinal h.symm),
    Nat.lt_of_not_le fun h => hlast (eq_last_of_ordinal h)⟩

end Date
end SiteVisit.Calendar
