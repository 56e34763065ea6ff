import SiteVisit.Proofs.Calendar.Ordinal
import SiteVisit.Proofs.Outcome
import SiteVisit.Proofs.Text.Padded
import SiteVisit.Store.Stamp

namespace SiteVisit.Calendar

attribute [ext] Wall

namespace Date

variable {a b : Date}

theorem ordinal_lt_of_year (h : a.year < b.year) : a.ordinal < b.ordinal := by
  have hend := a.ordinal_le
  have hyears : daysBeforeYear (a.year + 1) ≤ daysBeforeYear b.year := daysBeforeYear_monotone h
  have hday := b.day_range.1
  have hnumber : b.ordinal = daysBeforeYear b.year + daysBeforeMonth b.year b.month + b.day := rfl
  omega

theorem ordinal_lt_of_month (hyear : a.year = b.year) (h : a.month < b.month) :
    a.ordinal < b.ordinal := by
  have hend := a.daysBeforeMonth_add_day_le
  have hmonths : daysBeforeMonth b.year (a.month + 1) ≤ daysBeforeMonth b.year b.month :=
    daysBeforeMonth_monotone b.year h
  have hday := b.day_range.1
  rw [ordinal, ordinal, hyear]
  rw [hyear] at hend
  omega

theorem ordinal_lt_iff (a b : Date) :
    a.ordinal < b.ordinal ↔
      a.year < b.year ∨ a.year = b.year ∧
        (a.month < b.month ∨ a.month = b.month ∧ a.day < b.day) := by
  rcases Nat.lt_trichotomy a.year b.year with hyear | hyear | hyear
  · have := ordinal_lt_of_year hyear
    omega
  · rcases Nat.lt_trichotomy a.month b.month with hmonth | hmonth | hmonth
    · have := ordinal_lt_of_month hyear hmonth
      omega
    · rw [ordinal, ordinal, hyear, hmonth]
      omega
    · have := ordinal_lt_of_month hyear.symm hmonth
      omega
  · have := ordinal_lt_of_year hyear
    omega

theorem ordinal_inj : a.ordinal = b.ordinal ↔ a = b := by
  constructor
  · intro h
    have hab := ordinal_lt_iff a b
    have hba := ordinal_lt_iff b a
    exact Date.ext (by omega) (by omega) (by omega)
  · rintro rfl
    rfl

theorem day_lt_hundred (d : Date) : d.day < 100 := by
  have hday := d.day_range.2
  have hmonth : daysInMonth d.year d.month ≤ 31 := by
    rw [daysInMonth]
    grind
  omega

theorem le_climbYears (n steps year : Nat) : year ≤ climbYears n steps year := by
  induction steps generalizing year with
  | zero => exact Nat.le_refl year
  | succ steps ih =>
    rw [climbYears]
    split
    · exact Nat.le_of_succ_le (ih (year + 1))
    · exact Nat.le_refl year

theorem ofOrdinal?_of_lt {n : Nat} (h : lastOrdinal < n) : ofOrdinal? n = none := by
  have hyear : ¬ climbYears n 31 ((n - 1) / 366 + 1) ≤ 9999 := by
    by_cases hfar : n ≤ 366 * 9999
    · have hstart : daysBeforeYear ((n - 1) / 366 + 1) < n := by
        simp only [daysBeforeYear]
        omega
      have hreach : n ≤ daysBeforeYear ((n - 1) / 366 + 1 + 31 + 1) := by
        simp only [daysBeforeYear]
        omega
      obtain ⟨-, -, hhigh⟩ := climbYears_spec 31 hstart hreach
      intro hle
      have hmono : daysBeforeYear (climbYears n 31 ((n - 1) / 366 + 1) + 1) ≤
          daysBeforeYear 10000 := daysBeforeYear_monotone (by omega)
      have hend : daysBeforeYear 10000 = lastOrdinal := by decide
      omega
    · have hle := le_climbYears n 31 ((n - 1) / 366 + 1)
      omega
  simp only [ofOrdinal?, ofParts?]
  rw [dif_neg fun hrange => hyear hrange.2]

theorem ordinal_of_ofOrdinal? {n : Nat} {d : Date} (h : ofOrdinal? n = some d) : d.ordinal = n := by
  have hlast : n ≤ lastOrdinal := by
    by_contra hbeyond
    rw [ofOrdinal?_of_lt (by omega)] at h
    cases h
  have hfirst : 1 ≤ n := by
    by_contra hzero
    obtain rfl : n = 0 := by omega
    have hnone : ofOrdinal? 0 = none := by decide
    rw [hnone] at h
    cases h
  obtain ⟨d', hd', hordinal⟩ := exists_ofOrdinal? hfirst hlast
  rw [h] at hd'
  cases hd'
  exact hordinal

end Date

namespace Wall

theorem ofParts?_eq_some {date : Date} {hour minute second micro : Nat} {w : Wall} :
    ofParts? date hour minute second micro = some w ↔
      w.date = date ∧ w.hour = hour ∧ w.minute = minute ∧ w.second = second ∧ w.micro = micro := by
  rw [ofParts?]
  constructor
  · intro h
    split at h
    · cases h
      exact ⟨rfl, rfl, rfl, rfl, rfl⟩
    · cases h
  · rintro ⟨rfl, rfl, rfl, rfl, rfl⟩
    rw [dif_pos w.clock_range]

theorem micros_of_ofMicros? {n : Int} {w : Wall} (h : ofMicros? n = some w) : w.micros = n := by
  simp only [ofMicros?, Option.bind_eq_bind, Option.bind_eq_some_iff] at h
  obtain ⟨k, hk, d, hd, hparts⟩ := h
  have hordinal := Date.ordinal_of_ofOrdinal? hd
  obtain ⟨rfl, hhour, hminute, hsecond, hmicro⟩ := ofParts?_eq_some.mp hparts
  have hnat : n = k := by
    cases n with
    | ofNat n => exact congrArg Int.ofNat (Option.some.inj hk)
    | negSucc n => cases hk
  rw [micros, hordinal, hhour, hminute, hsecond, hmicro, hnat]
  omega

theorem micros_lt_iff (a b : Wall) :
    a.micros < b.micros ↔
      a.date.ordinal < b.date.ordinal ∨ a.date.ordinal = b.date.ordinal ∧
        (a.hour < b.hour ∨ a.hour = b.hour ∧ (a.minute < b.minute ∨ a.minute = b.minute ∧
          (a.second < b.second ∨ a.second = b.second ∧ a.micro < b.micro))) := by
  have ha := a.clock_range
  have hb := b.clock_range
  simp only [micros]
  omega

end Wall
end SiteVisit.Calendar

namespace SiteVisit.Stamp

open Calendar Text

def ending (micro : Nat) : List Char :=
  (if micro == 0 then [] else '.' :: (padded 6 micro).toList) ++ "+00:00".toList

theorem toList_ofWall (w : Wall) :
    (ofWall w).toList =
      (padded 4 w.date.year).toList ++ '-' :: ((padded 2 w.date.month).toList ++
        '-' :: ((padded 2 w.date.day).toList ++ 'T' :: ((padded 2 w.hour).toList ++
          ':' :: ((padded 2 w.minute).toList ++ ':' :: ((padded 2 w.second).toList ++
            ending w.micro))))) := by
  have hpoint : ".".toList = ['.'] := rfl
  have hdash : "-".toList = ['-'] := rfl
  have hcolon : ":".toList = [':'] := rfl
  have hmark : "T".toList = ['T'] := rfl
  simp only [ofWall, Wall.iso, Wall.clockIso, Date.iso, ending, String.toList_append, hdash, hcolon,
    hmark, List.append_assoc, List.cons_append, List.nil_append]
  split <;> simp [hpoint]

theorem ending_lt_iff {n m : Nat} (hn : n < 1000000) (hm : m < 1000000) :
    ending n < ending m ↔ n < m := by
  have hzero (rest : List Char) : "+00:00".toList < '.' :: rest :=
    List.cons_lt_cons_iff.mpr (.inl (by decide))
  by_cases hn0 : n = 0
  · by_cases hm0 : m = 0
    · simp [hn0, hm0]
    · simp only [ending, hn0, hm0, beq_self_eq_true, beq_iff_eq, if_true, if_false, List.nil_append,
        List.cons_append, hzero, true_iff]
      omega
  · by_cases hm0 : m = 0
    · simp only [ending, hn0, hm0, beq_self_eq_true, beq_iff_eq, if_true, if_false, List.nil_append,
        List.cons_append, Nat.not_lt_zero, iff_false]
      exact List.lt_asymm (hzero _)
    · simp only [ending, hn0, hm0, beq_iff_eq, if_false, List.cons_append, List.cons_lt_cons_iff,
        padded_append_lt_iff (Nat.succ_pos 5) hn hm, Char.lt_irrefl, List.lt_irrefl,
        false_or, true_and, and_false, or_false]

/-- To compare pairs and then further parts is to compare the parts one after the other. -/
theorem lex_assoc {p q r s t : Prop} : (p ∨ q ∧ r) ∨ (q ∧ s) ∧ t ↔ p ∨ q ∧ (r ∨ s ∧ t) := by
  rw [or_assoc, and_assoc, ← and_or_left]

theorem ofWall_lt_iff (a b : Wall) : ofWall a < ofWall b ↔ a.micros < b.micros := by
  have hcons (c : Char) (cs ds : List Char) : c :: cs < c :: ds ↔ cs < ds := by
    simp
  have ha := a.clock_range
  have hb := b.clock_range
  have hmonths := And.intro a.date.month_range b.date.month_range
  have hyears := And.intro a.date.year_range b.date.year_range
  have hdays := And.intro a.date.day_lt_hundred b.date.day_lt_hundred
  rw [String.lt_iff, toList_ofWall, toList_ofWall,
    padded_append_lt_iff (by omega) (by omega) (by omega), hcons,
    padded_append_lt_iff (by omega) (by omega) (by omega), hcons,
    padded_append_lt_iff (by omega) (by omega) (by omega), hcons,
    padded_append_lt_iff (by omega) (by omega) (by omega), hcons,
    padded_append_lt_iff (by omega) (by omega) (by omega), hcons,
    padded_append_lt_iff (by omega) (by omega) (by omega),
    ending_lt_iff (by omega) (by omega), Wall.micros_lt_iff, Date.ordinal_lt_iff,
    Date.ordinal_inj, Date.ext_iff]
  rw [lex_assoc, lex_assoc]

end SiteVisit.Stamp
