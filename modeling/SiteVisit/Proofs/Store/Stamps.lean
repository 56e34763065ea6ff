import SiteVisit.Proofs.Calendar.Walls

namespace SiteVisit

theorem Calendar.day_eq : Calendar.day = 86400000000 := rfl

namespace Calendar.Wall

theorem exists_ofMicros? {n : Int} (hfirst : day ≤ n) (hlast : n < (lastOrdinal + 1) * day) :
    ∃ w, ofMicros? n = some w := by
  simp only [day_eq, lastOrdinal] at hfirst hlast
  obtain ⟨k, rfl⟩ := Int.eq_ofNat_of_zero_le (show 0 ≤ n by omega)
  obtain ⟨d, hd, -⟩ := Date.exists_ofOrdinal? (n := k / 1000000 / 60 / 60 / 24) (by omega)
    (by simp only [lastOrdinal]; omega)
  have hclock : k / 1000000 / 60 / 60 % 24 < 24 ∧ k / 1000000 / 60 % 60 < 60 ∧
      k / 1000000 % 60 < 60 ∧ k % 1000000 < 1000000 := by omega
  refine ⟨⟨d, _, _, _, _, hclock⟩, ?_⟩
  have hnat : (k : Int).toNat? = some k := rfl
  simp only [ofMicros?, hnat, Option.bind_eq_bind, Option.bind_some, hd]
  rw [ofParts?, dif_pos hclock]

theorem micros_range (w : Wall) :
    w.date.ordinal * day ≤ w.micros ∧ w.micros < (w.date.ordinal + 1) * day := by
  have hclock := w.clock_range
  simp only [micros, day_eq]
  omega

theorem ofMicros?_eq_some {n : Int} {w : Wall} : ofMicros? n = some w ↔ w.micros = n := by
  refine ⟨micros_of_ofMicros?, ?_⟩
  rintro rfl
  have hfirst := w.date.one_le_ordinal
  have hlast := w.date.ordinal_le_lastOrdinal
  have hrange := w.micros_range
  obtain ⟨other, hother⟩ := exists_ofMicros? (n := w.micros) (by simp only [day_eq] at *; omega)
    (by simp only [day_eq, lastOrdinal] at *; omega)
  have hmicros := micros_of_ofMicros? hother
  have hab := micros_lt_iff other w
  have hba := micros_lt_iff w other
  have hdate : other.date = w.date := Date.ordinal_inj.mp (by omega)
  rw [hother, Wall.ext hdate (by omega) (by omega) (by omega) (by omega)]

end Calendar.Wall

open Calendar

theorem Stamp.exists_ofMoment {w : Wall} (hfirst : w.date ≠ .first) (hlast : w.date ≠ .last)
    (z : Offsets) : ∃ text, Stamp.ofMoment ⟨w, .fixed (z.ahead w)⟩ = .ok text := by
  have hinner := Date.ordinal_inner hfirst hlast
  have hwall := w.micros_range
  have hahead := z.ahead_range w
  obtain ⟨utc, hutc⟩ := Wall.exists_ofMicros? (n := w.micros - z.ahead w)
    (by simp only [day_eq] at *; omega)
    (by simp only [day_eq, lastOrdinal] at *; omega)
  refine ⟨Stamp.ofWall utc, ?_⟩
  simp only [Stamp.ofMoment, Moment.instant?, Moment.offset?, Moment.utc?, Option.map_some,
    Option.bind_some, hutc]

theorem Stamp.exists_ofLocal {zones : Timezones} {zone : String} {z : Offsets}
    (hzone : zones zone = some z) {date : Option Date}
    (hfirst : date ≠ some .first) (hlast : date ≠ some .last) (clock : Option TimeOfDay) :
    ∃ text, Stamp.ofLocal date clock zone zones = .ok text := by
  cases date with
  | none => exact ⟨none, rfl⟩
  | some d =>
    cases clock with
    | none => exact ⟨none, rfl⟩
    | some t =>
      obtain ⟨text, htext⟩ := Stamp.exists_ofMoment (w := Wall.at d t)
        (fun h => hfirst (congrArg some h)) (fun h => hlast (congrArg some h)) z
      exact ⟨some text, by simp only [Stamp.ofLocal, hzone, htext]; rfl⟩

end SiteVisit
