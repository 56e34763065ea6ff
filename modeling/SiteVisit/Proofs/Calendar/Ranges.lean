import SiteVisit.Calendar.TimeLabel
import SiteVisit.Proofs.Outcome

namespace SiteVisit.Calendar

namespace TimeOfDay

def AtMost (a b : TimeOfDay) : Prop := a.hour < b.hour ∨ a.hour = b.hour ∧ a.minute ≤ b.minute

theorem minutes_le_iff (a b : TimeOfDay) : a.minutes ≤ b.minutes ↔ a.AtMost b := by
  have ha := a.minute_lt
  have hb := b.minute_lt
  simp only [minutes, AtMost]
  omega

theorem ofClock_eq_ok {hour minute : Int} {t : TimeOfDay} (h : ofClock hour minute = .ok t) :
    (t.hour : Int) = hour ∧ (t.minute : Int) = minute := by
  rw [ofClock] at h
  split at h
  · next hhour =>
    split at h
    · next hminute =>
      cases h
      exact ⟨Int.toNat_of_nonneg hhour.1, Int.toNat_of_nonneg hminute.1⟩
    · cases h
  · cases h

end TimeOfDay

def hourOf (hour : Nat) : Meridiem → Nat
  | .am => hour % 12
  | .pm => hour % 12 + 12

namespace TimeLabel

open Text (trimChars)

variable {r : Reading} {m : Meridiem} {t : TimeOfDay}

theorem hour_of_time? (h : r.time? m = some t) :
    t.hour = hourOf r.hour m ∧ t.minute = r.minute := by
  rw [Reading.time?, TimeOfDay.ofMeridiem] at h
  split at h
  · next hrange =>
    obtain ⟨hhour, hminute⟩ := TimeOfDay.ofClock_eq_ok (eq_ok_of_toOption h)
    refine ⟨?_, by omega⟩
    cases m with
    | am =>
      simp only [hourOf] at hhour ⊢
      split at hhour <;> omega
    | pm =>
      simp only [hourOf] at hhour ⊢
      split at hhour <;> omega
  · cases h

theorem range_of_times? {l : Label} {start finish : TimeOfDay}
    (h : l.times? = some ⟨some start, some finish⟩) :
    ∃ s f m, l = .range s f m ∧ f.time? m = some finish ∧
      (s.time? m = some start ∧ start.AtMost finish ∨
        ∃ later, s.time? m = some later ∧ ¬ later.AtMost finish ∧ s.time? .am = some start) := by
  cases l with
  | upTo r m =>
    obtain ⟨t, -, ht⟩ := Option.map_eq_some_iff.mp h
    cases ht
  | single r m =>
    obtain ⟨t, -, ht⟩ := Option.map_eq_some_iff.mp h
    cases ht
  | range s f m =>
    simp only [Label.times?, Option.bind_eq_bind, Option.bind_eq_some_iff] at h
    obtain ⟨t, hfinish, later, hlater, h⟩ := h
    refine ⟨s, f, m, rfl, ?_⟩
    split at h
    · next hle =>
      cases h
      exact ⟨hfinish, .inl ⟨hlater, (TimeOfDay.minutes_le_iff _ _).mp hle⟩⟩
    · next hnot =>
      obtain ⟨morning, hmorning, h⟩ := Option.bind_eq_some_iff.mp h
      cases h
      exact ⟨hfinish, .inr ⟨later, hlater, fun hle => hnot ((TimeOfDay.minutes_le_iff _ _).mpr hle),
        hmorning⟩⟩

/-- A text that names a start and an end is a range. The start has the half of the day that the end
has, or is a time of the morning if it were after the end otherwise. So it comes before the end if
the label is one of the afternoon. In one of the morning the two clocks decide. -/
theorem parse_order {text : String} {start finish : TimeOfDay}
    (h : parse text = some ⟨some start, some finish⟩) :
    ∃ s f m, Label.read? (trimChars text.toList) = some (.range s f m) ∧
      f.time? m = some finish ∧
      (s.time? m = some start ∨
        ∃ later, s.time? m = some later ∧ ¬ later.AtMost finish ∧ s.time? .am = some start) ∧
      (start.AtMost finish ↔ m = .pm ∨ s.hour % 12 < f.hour % 12 ∨
        s.hour % 12 = f.hour % 12 ∧ s.minute ≤ f.minute) := by
  rw [parse, parseChars] at h
  split at h
  · cases h
  · obtain ⟨l, hread, htimes⟩ := Option.bind_eq_some_iff.mp h
    obtain ⟨s, f, m, rfl, hfinish, hstart⟩ := range_of_times? htimes
    refine ⟨s, f, m, hread, hfinish, hstart.imp_left (·.1), ?_⟩
    obtain ⟨hhour, hminute⟩ := hour_of_time? hfinish
    cases m with
    | pm =>
      refine iff_of_true ?_ (.inl rfl)
      rcases hstart with ⟨-, hle⟩ | ⟨later, -, -, hmorning⟩
      · exact hle
      · have hearly := (hour_of_time? hmorning).1
        simp only [hourOf] at hhour hearly
        exact .inl (by omega)
    | am =>
      have hmorning : s.time? .am = some start := by
        rcases hstart with ⟨hmorning, -⟩ | ⟨_, -, -, hmorning⟩
        · exact hmorning
        · exact hmorning
      obtain ⟨hhour', hminute'⟩ := hour_of_time? hmorning
      rw [TimeOfDay.AtMost, hhour, hminute, hhour', hminute']
      simp [hourOf]

theorem parse_order_lunch : ∃ start finish, parse "11:00-1:00 p.m." = some ⟨some start, some finish⟩ ∧
    start.AtMost finish := by
  have hparse : parse "11:00-1:00 p.m." =
      some ⟨some ⟨11, 0, by decide, by decide⟩, some ⟨13, 0, by decide, by decide⟩⟩ := by
    decide
  obtain ⟨s, f, m, hread, -, -, horder⟩ := parse_order hparse
  have hlabel : Label.read? (trimChars "11:00-1:00 p.m.".toList) =
      some (.range ⟨11, 0⟩ ⟨1, 0⟩ .pm) := by decide
  cases hread.symm.trans hlabel
  exact ⟨_, _, hparse, horder.mpr (.inl rfl)⟩

/-- A range of the morning whose clocks stand the other way round. -/
theorem parse_backwards : ∃ start finish,
    parse "11:00-9:00 a.m." = some ⟨some start, some finish⟩ ∧ ¬ start.AtMost finish := by
  have hparse : parse "11:00-9:00 a.m." =
      some ⟨some ⟨11, 0, by decide, by decide⟩, some ⟨9, 0, by decide, by decide⟩⟩ := by
    decide
  exact ⟨_, _, hparse, by simp [TimeOfDay.AtMost]⟩

end TimeLabel
end SiteVisit.Calendar
