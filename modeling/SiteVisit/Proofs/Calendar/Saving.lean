import SiteVisit.Proofs.Calendar.Transitions
import SiteVisit.Proofs.Store.Stamps

namespace SiteVisit.Calendar

theorem hour_pos : 0 < hour := by decide

def yearStart (year : Nat) : Int := (daysBeforeYear year + 1 : Nat) * day

theorem yearStart_mono {year next : Nat} (h : year ≤ next) : yearStart year ≤ yearStart next := by
  have hdays := daysBeforeYear_monotone h
  simp only [yearStart, day_eq]
  omega

theorem Wall.year_range (w : Wall) :
    yearStart w.date.year ≤ w.micros ∧ w.micros < yearStart (w.date.year + 1) := by
  have hwall := w.micros_range
  have hend := w.date.ordinal_le
  have hday := w.date.day_range.1
  have hnumber : w.date.ordinal =
    daysBeforeYear w.date.year + daysBeforeMonth w.date.year w.date.month + w.date.day := rfl
  simp only [yearStart, day_eq] at *
  omega

theorem inSeason_iff {start finish point : Int} : inSeason start finish point = true ↔
    start < finish ∧ start ≤ point ∧ point < finish ∨
      finish ≤ start ∧ (point < finish ∨ start ≤ point) := by
  rw [inSeason]
  split <;> simp <;> omega

namespace Change

variable {c d : Change} {year : Nat}

def IsInner (c : Change) : Prop :=
  (2 ≤ c.month ∧ c.month ≤ 11) ∧ c.hour < 24 ∧
    c.sunday ∈ [.nth 1, .nth 2, .nth 3, .nth 4, .last]

instance : DecidablePred IsInner := fun _ => inferInstanceAs (Decidable (_ ∧ _))

theorem le_daysInMonth (year month : Nat) : 28 ≤ daysInMonth year month := by
  rw [daysInMonth]
  grind

theorem IsInner.day_range (h : c.IsInner) (year : Nat) :
    1 ≤ c.day year ∧ c.day year ≤ daysInMonth year c.month := by
  have hmonth := le_daysInMonth year c.month
  have hsunday := h.2.2
  simp only [List.mem_cons, List.not_mem_nil, or_false] at hsunday
  rcases hsunday with h | h | h | h | h <;> simp only [Change.day, h] <;> omega

theorem IsInner.micros_range (h : c.IsInner) (year : Nat) :
    yearStart year + daysBeforeMonth year c.month * Calendar.day ≤ c.micros year ∧
      c.micros year < yearStart year + daysBeforeMonth year (c.month + 1) * Calendar.day := by
  have hday := h.day_range year
  have hhour := h.2.1
  rw [daysBeforeMonth_succ year c.month (by have := h.1.1; omega)]
  simp only [Change.micros, yearStart, day_eq, Calendar.hour, minute, second]
  omega

theorem IsInner.inYear (h : c.IsInner) (hyear : 1 ≤ year) :
    yearStart year + 28 * Calendar.day ≤ c.micros year ∧
      c.micros year + 28 * Calendar.day ≤ yearStart (year + 1) := by
  have hmicros := h.micros_range year
  have hlow : daysBeforeMonth year 2 ≤ daysBeforeMonth year c.month :=
    daysBeforeMonth_monotone year h.1.1
  have hhigh : daysBeforeMonth year (c.month + 1) ≤ daysBeforeMonth year 12 :=
    daysBeforeMonth_monotone year (Nat.succ_le_succ h.1.2)
  have hjanuary : daysBeforeMonth year 2 = 31 := rfl
  have hdecember : daysBeforeMonth year 13 = _ := daysBeforeMonth_succ year 12 (by decide)
  have hlast := le_daysInMonth year 12
  have hend := daysBeforeYear_succ year hyear
  rw [Nat.add_assoc, ← daysBeforeMonth_thirteen] at hend
  simp only [yearStart, day_eq] at *
  omega

theorem IsInner.far (hc : c.IsInner) (hd : d.IsInner) (hmonth : c.month + 2 ≤ d.month)
    (year : Nat) : c.micros year + 28 * Calendar.day ≤ d.micros year := by
  have hcm := hc.micros_range year
  have hdm := hd.micros_range year
  have hmonths : daysBeforeMonth year (c.month + 2) ≤ daysBeforeMonth year d.month :=
    daysBeforeMonth_monotone year hmonth
  have hbetween : daysBeforeMonth year (c.month + 2) = _ :=
    daysBeforeMonth_succ year (c.month + 1) (by omega)
  have hlong := le_daysInMonth year (c.month + 1)
  simp only [yearStart, day_eq] at *
  omega

end Change

namespace Saving

variable {s : Saving} {standard : Int} {year : Nat}

structure IsRegular (s : Saving) : Prop where
  start : s.start.IsInner
  finish : s.finish.IsInner
  far : s.start.month + 2 ≤ s.finish.month ∨ s.finish.month + 2 ≤ s.start.month

def isNorthern (s : Saving) : Bool := s.start.month < s.finish.month

def before (s : Saving) (standard : Int) : Int :=
  if s.isNorthern then standard else standard + hour

def ahead (s : Saving) (standard : Int) : Int :=
  if s.isNorthern then standard + hour else standard

def first (s : Saving) (standard : Int) (year : Nat) : Int :=
  if s.isNorthern then s.start.micros year - standard
  else s.finish.micros year - hour - standard

def second (s : Saving) (standard : Int) (year : Nat) : Int :=
  if s.isNorthern then s.finish.micros year - hour - standard
  else s.start.micros year - standard

def transitions (s : Saving) (standard : Int) : List Transition :=
  Transition.yearly (s.before standard) (s.ahead standard) (s.first standard) (s.second standard)
    1 9999

theorem IsRegular.apart (h : s.IsRegular) (standard : Int) :
    Transition.Apart (s.before standard) (s.transitions standard) := by
  refine Transition.apart_yearly fun year hyear => ?_
  have hstart := h.start.inYear hyear
  have hfinish := h.finish.inYear hyear
  have hstart' := h.start.inYear (show 1 ≤ year + 1 by omega)
  have hfinish' := h.finish.inYear (show 1 ≤ year + 1 by omega)
  simp only [before, ahead, first, second]
  cases hnorth : s.isNorthern with
  | true =>
    have hlt : s.start.month < s.finish.month := of_decide_eq_true hnorth
    have hfar := h.start.far h.finish (h.far.resolve_right (by omega)) year
    simp only [if_true, day] at *
    have hhour := hour_pos
    omega
  | false =>
    have hnlt : ¬ s.start.month < s.finish.month := of_decide_eq_false hnorth
    have hfar := h.finish.far h.start (h.far.resolve_left (by omega)) year
    simp only [Bool.false_eq_true, if_false, day] at *
    have hhour := hour_pos
    omega

theorem max_before_ahead (s : Saving) (standard : Int) :
    max (s.before standard) (s.ahead standard) = standard + hour := by
  have hhour := hour_pos
  rw [before, ahead]
  split <;> omega

theorem IsRegular.reaches (h : s.IsRegular) (standard : Int) (w : Wall) {n : Int}
    (hn : w.micros - standard - hour ≤ n ∧ n ≤ w.micros - standard) :
    (∀ y, 1 ≤ y → y < w.date.year → s.first standard y ≤ n ∧ s.second standard y ≤ n) ∧
    ∀ y, w.date.year < y → n < s.first standard y := by
  have hwall := w.year_range
  have hhour := hour_pos
  constructor
  · intro y hpos hy
    have hstart := h.start.inYear hpos
    have hfinish := h.finish.inYear hpos
    have hnext := yearStart_mono (Nat.succ_le_of_lt hy)
    rw [first, second]
    simp only [day, Nat.succ_eq_add_one] at *
    split <;> omega
  · intro y hy
    have hstart := h.start.inYear (show 1 ≤ y by omega)
    have hfinish := h.finish.inYear (show 1 ≤ y by omega)
    have hnext := yearStart_mono (Nat.succ_le_of_lt hy)
    rw [first]
    simp only [day, Nat.succ_eq_add_one] at *
    split <;> omega

theorem IsRegular.season_eq (h : s.IsRegular) (standard : Int) (year : Nat) (n late : Int) :
    (if n < s.first standard year + late then s.before standard
      else if n < s.second standard year + late then s.ahead standard else s.before standard) =
    if inSeason (s.start.micros year + late) (s.finish.micros year - hour + late) (n + standard)
    then standard + hour else standard := by
  have hhour := hour_pos
  by_cases hlt : s.start.month < s.finish.month
  · have hnorth : s.isNorthern = true := decide_eq_true hlt
    have hfar := h.start.far h.finish (h.far.resolve_right (by omega)) year
    simp only [Calendar.inSeason_iff, first, second, before, ahead, hnorth, if_true, day] at *
    split <;> split <;> (try split) <;> omega
  · have hsouth : s.isNorthern = false := decide_eq_false hlt
    have hfar := h.finish.far h.start (h.far.resolve_left (by omega)) year
    simp only [Calendar.inSeason_iff, first, second, before, ahead, hsouth, Bool.false_eq_true,
      if_false, day] at *
    split <;> split <;> (try split) <;> omega

end Saving

namespace Zone

variable {z : Zone}

def before (z : Zone) : Int :=
  match z.saving with
  | none => z.standardOffset
  | some s => s.before z.standardOffset

def transitions (z : Zone) : List Transition :=
  match z.saving with
  | none => []
  | some s => s.transitions z.standardOffset

theorem apart (h : ∀ s ∈ z.saving, s.IsRegular) : Transition.Apart z.before z.transitions := by
  rw [before, transitions]
  cases hs : z.saving with
  | none => exact .nil
  | some s => exact (h s hs).apart z.standardOffset

theorem aheadOn_eq (h : ∀ s ∈ z.saving, s.IsRegular) (w : Wall) :
    Transition.aheadOn z.before z.transitions w.micros = z.offsetAtWall w := by
  rw [before, transitions, offsetAtWall]
  cases hs : z.saving with
  | none => rfl
  | some s =>
    have hyear := w.date.year_range
    have hhour := hour_pos
    have hmax := s.max_before_ahead z.standardOffset
    obtain ⟨hpast, hcoming⟩ := (h s hs).reaches z.standardOffset w
      (n := w.micros - z.standardOffset - hour) ⟨by omega, by omega⟩
    -- A reading that a transition leaves out or repeats counts as before it, hence the maximum.
    have hbound (x : Int) :
        w.micros < x + max (s.before z.standardOffset) (s.ahead z.standardOffset) ↔
          w.micros - z.standardOffset < x + hour := by omega
    have hseason := (h s hs).season_eq z.standardOffset w.date.year
      (w.micros - z.standardOffset) hour
    rw [Int.sub_add_cancel, Int.sub_add_cancel] at hseason
    dsimp only
    rw [Saving.transitions, Transition.aheadOn, Transition.scan_yearly hyear.1 (by omega),
      ← hseason]
    · simp only [max_comm (s.ahead _), hbound]
    · intro y hpos hy
      have := hpast y hpos hy
      dsimp only
      omega
    · intro y hy
      have := hcoming y hy
      dsimp only
      omega

theorem aheadAt_range (z : Zone) (t : Int) :
    z.standardOffset ≤ Transition.aheadAt z.before z.transitions t ∧
      Transition.aheadAt z.before z.transitions t ≤ z.standardOffset + hour := by
  have hhour := hour_pos
  rw [before, transitions]
  cases z.saving with
  | none =>
    simp only [Transition.aheadAt_nil]
    omega
  | some s =>
    have hboth := Transition.scan_yearly_eq_or (s.before z.standardOffset)
      (s.ahead z.standardOffset) (fun _ c => c.instant) (s.first z.standardOffset)
      (s.second z.standardOffset) 1 9999 t
    dsimp only
    rw [Transition.aheadAt, Saving.transitions]
    generalize Transition.scan _ _ _ t = x at *
    rw [Saving.before, Saving.ahead] at hboth
    split at hboth <;> omega

theorem aheadAt_eq (h : ∀ s ∈ z.saving, s.IsRegular) {t : Int} {w : Wall}
    (hw : Wall.ofMicros? (t + z.standardOffset) = some w) :
    Transition.aheadAt z.before z.transitions t = z.offsetAtInstant t := by
  rw [before, transitions, offsetAtInstant]
  cases hs : z.saving with
  | none => rfl
  | some s =>
    have hyear := w.date.year_range
    have hhour := hour_pos
    have hmicros := Wall.micros_of_ofMicros? hw
    obtain ⟨hpast, hcoming⟩ := (h s hs).reaches z.standardOffset w (n := t) ⟨by omega, by omega⟩
    have hseason := (h s hs).season_eq z.standardOffset w.date.year t 0
    simp only [Int.add_zero] at hseason
    simp only [hw]
    rw [Saving.transitions, Transition.aheadAt, Transition.scan_yearly hyear.1 (by omega),
      ← hseason]
    · exact hpast
    · exact hcoming

theorem offsetAtInstant_range (z : Zone) (t : Int) :
    z.standardOffset ≤ z.offsetAtInstant t ∧ z.offsetAtInstant t ≤ z.standardOffset + hour := by
  have hhour := hour_pos
  rw [offsetAtInstant]
  split
  · dsimp only
    split <;> omega
  · omega

def rules (z : Zone) (h : ∀ s ∈ z.saving, s.IsRegular) : Rules := ⟨z.before, z.transitions, apart h⟩

theorem wallAt?_eq_some (h : ∀ s ∈ z.saving, s.IsRegular) {t : Int} {w : Wall}
    (hfirst : w.date ≠ .first) (hlast : w.date ≠ .last) :
    z.wallAt? t = some w ↔ (z.rules h).wallAt? t = some w := by
  have hday : day = 24 * hour := rfl
  have hhour := hour_pos
  have hinner := Date.ordinal_inner hfirst hlast
  have hrange := w.micros_range
  have hinstant := z.offsetAtInstant_range t
  have hahead : z.standardOffset ≤ (z.rules h).aheadAt t ∧
      (z.rules h).aheadAt t ≤ z.standardOffset + hour := z.aheadAt_range t
  have hagree (hlow : w.micros ≤ t + z.standardOffset + hour)
      (hhigh : t + z.standardOffset ≤ w.micros) : (z.rules h).aheadAt t = z.offsetAtInstant t := by
    obtain ⟨clock, hclock⟩ := Wall.exists_ofMicros? (n := t + z.standardOffset)
      (by simp only [day_eq, lastOrdinal] at *; omega)
      (by simp only [day_eq, lastOrdinal] at *; omega)
    exact aheadAt_eq h hclock
  rw [wallAt?, Rules.wallAt?, Wall.ofMicros?_eq_some, Wall.ofMicros?_eq_some]
  constructor
  · intro hshown
    rw [hagree (by omega) (by omega), hshown]
  · intro hshown
    rw [← hagree (by omega) (by omega), hshown]

end Zone

theorem Saving.isRegular_of_mem {z : Zone} (hz : z ∈ zones) : ∀ s ∈ z.saving, s.IsRegular := by
  have hall : ∀ z ∈ zones, ∀ s ∈ z.saving, s.start.IsInner ∧ s.finish.IsInner ∧
      (s.start.month + 2 ≤ s.finish.month ∨ s.finish.month + 2 ≤ s.start.month) := by decide
  intro s hs
  obtain ⟨hstart, hfinish, hfar⟩ := hall z hz s hs
  exact ⟨hstart, hfinish, hfar⟩

end SiteVisit.Calendar
