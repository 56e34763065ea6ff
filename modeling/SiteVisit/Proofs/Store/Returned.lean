import SiteVisit.Proofs.Calendar.Saving
import SiteVisit.Proofs.Store.Moments

/-!
Stored times lead back to the times of day that they were made of, wherever the clocks of the zone
show these at all, and they follow each other as the times of a day do.
-/

namespace SiteVisit

open Calendar

structure Calendar.Rules.Govern (r : Rules) (z : Offsets) (shown : Int → Option Wall) : Prop where
  reading : ∀ w, z.ahead w = r.aheadOn w
  instant : ∀ t w, w.date ≠ .first → w.date ≠ .last →
    (shown t = some w ↔ r.wallAt? t = some w)

theorem Calendar.Rules.govern_self (r : Rules)
    (hrange : ∀ w, -day < r.aheadOn w ∧ r.aheadOn w < day) :
    r.Govern ⟨r.aheadOn, hrange⟩ r.wallAt? where
  reading _ := rfl
  instant _ _ _ _ := Iff.rfl

theorem Calendar.Wall.micros_at_lt (d : Date) {clock later : TimeOfDay}
    (h : clock.minutes < later.minutes) : (Wall.at d clock).micros < (Wall.at d later).micros := by
  rw [TimeOfDay.minutes, TimeOfDay.minutes] at h
  simp only [Wall.micros, Wall.at]
  omega

namespace Stamp

variable {zones : Timezones} {zone : String} {z : Offsets} {shown : Int → Option Wall} {r : Rules}
  {d : Date} {clock later : TimeOfDay} {text text' : String}

/-- A text is stored for a time of a day and read again as the instant at which the clocks show this
time, for the first time if they show it twice. -/
structure LeadsBack (zones : Timezones) (zone : String) (shown : Int → Option Wall) (d : Date)
    (clock : TimeOfDay) (text : String) : Prop where
  stored : ofLocal (some d) (some clock) zone zones = .ok (some text)
  returned : ∃ m t, read (some text) = .ok (some m) ∧ m.instant? = some t ∧
    shown t = some (.at d clock) ∧ ∀ t', shown t' = some (.at d clock) → t ≤ t'

/-- The stored texts of a zone lead back to the times that its clocks show, and the texts of two
times of a day are in the order of the times. -/
def Returns (zones : Timezones) (zone : String) (shown : Int → Option Wall) : Prop :=
  ∀ d : Date, d ≠ .first → d ≠ .last → ∀ clock, (∃ t, shown t = some (.at d clock)) →
    ∃ text, LeadsBack zones zone shown d clock text ∧
      ∀ later text', clock.minutes < later.minutes → (∃ t, shown t = some (.at d later)) →
        ofLocal (some d) (some later) zone zones = .ok (some text') → text < text'

theorem ofLocal_eq (hzone : zones zone = some z) (hfirst : d ≠ .first) (hlast : d ≠ .last)
    (clock : TimeOfDay) :
    ∃ w : Wall, ofLocal (some d) (some clock) zone zones = .ok (some (ofWall w)) ∧
      w.micros = (Wall.at d clock).micros - z.ahead (.at d clock) := by
  obtain ⟨text, htext⟩ := exists_ofMoment (w := .at d clock) hfirst hlast z
  obtain ⟨w, rfl, hw⟩ := ofMoment_ok htext
  exact ⟨w, by simp only [ofLocal, hzone, htext]; rfl, (Option.some.inj hw).symm⟩

theorem returns_of_govern (hzone : zones zone = some z) (hgovern : r.Govern z shown) :
    Returns zones zone shown := by
  intro d hfirst hlast clock ⟨t, ht⟩
  have hshown (t : Int) (clock : TimeOfDay) : shown t = some (.at d clock) ↔
      t + r.aheadAt t = (Wall.at d clock).micros := by
    rw [hgovern.instant t (.at d clock) hfirst hlast, Rules.wallAt?, Wall.ofMicros?_eq_some,
      eq_comm]
  obtain ⟨w, hstored, hw⟩ := ofLocal_eq hzone hfirst hlast clock
  rw [hgovern.reading] at hw
  have hearliest (t' : Int) (ht' : shown t' = some (.at d clock)) :=
    r.apart.earliest ((hshown t' clock).mp ht')
  refine ⟨ofWall w, ⟨hstored, ⟨w, .fixed 0⟩, w.micros, read_ofWall w,
    by simp [Moment.instant?, Moment.offset?], ?_, ?_⟩, ?_⟩
  · rw [hshown, hw]
    exact (hearliest t ht).1
  · intro t' ht'
    rw [hw]
    exact (hearliest t' ht').2
  · intro later text' hlt ⟨t', ht'⟩ hstored'
    obtain ⟨w', hw', hmicros⟩ := ofLocal_eq hzone hfirst hlast later
    rw [hstored'] at hw'
    obtain rfl : text' = ofWall w' := Option.some.inj (Except.ok.inj hw')
    rw [ofWall_lt_iff, hw, hmicros, hgovern.reading]
    exact r.apart.instant_lt ((hshown t clock).mp ht) ((hshown t' later).mp ht')
      (Wall.micros_at_lt d hlt)

theorem govern_of_mem {z : Zone} (hz : z ∈ Calendar.zones) :
    (z.rules (Saving.isRegular_of_mem hz)).Govern ⟨z.offsetAtWall, z.offsetAtWall_range⟩
      z.wallAt? where
  reading w := (z.aheadOn_eq (Saving.isRegular_of_mem hz) w).symm
  instant _ _ hfirst hlast := z.wallAt?_eq_some (Saving.isRegular_of_mem hz) hfirst hlast

/-- The stored texts lead back to the times in every zone that is known, with the rules that hold since
2008 in all years, and in every timezone whose clocks follow a table of transitions. -/
theorem ofLocal_returns :
    (∀ zone z, Zone.ofName? zone = some z → Returns Timezones.known zone z.wallAt?) ∧
    ∀ (zones : Timezones) (zone : String) (z : Offsets) (r : Rules) (shown : Int → Option Wall),
      zones zone = some z → r.Govern z shown → Returns zones zone shown := by
  refine ⟨fun zone z hz => ?_, fun zones zone z r shown hzone hgovern =>
    returns_of_govern hzone hgovern⟩
  have hmem : z ∈ Calendar.zones := List.mem_of_find?_eq_some hz
  refine returns_of_govern (z := ⟨z.offsetAtWall, z.offsetAtWall_range⟩) ?_ (govern_of_mem hmem)
  rw [Timezones.known, hz, Option.map_some]

def repeatedHour : Date := ⟨2026, 11, 1, by decide, by decide, by decide⟩

def crossing : Rules := ⟨-12 * hour, [⟨62881617600000000, 12 * hour⟩], .one⟩

theorem crossing_range (w : Wall) : -day < crossing.aheadOn w ∧ crossing.aheadOn w < day := by
  rw [Rules.aheadOn, crossing, Transition.aheadOn_cons, Transition.aheadOn_nil]
  split <;> decide

def crossingZone : Offsets := ⟨crossing.aheadOn, crossing_range⟩

def afterCrossing : Date := ⟨1993, 8, 22, by decide, by decide, by decide⟩

theorem ofLocal_returns_repeated :
    (∃ z, Zone.ofName? "America/New_York" = some z ∧
      LeadsBack Timezones.known "America/New_York" z.wallAt? repeatedHour
        ⟨1, 30, by decide, by decide⟩ "2026-11-01T05:30:00+00:00" ∧
      "2026-11-01T05:30:00+00:00" < "2026-11-01T07:30:00+00:00") ∧
    LeadsBack (fun _ => some crossingZone) "Pacific/Kwajalein" crossing.wallAt? afterCrossing
      ⟨0, 15, by decide, by decide⟩ "1993-08-21T12:15:00+00:00" := by
  constructor
  · obtain ⟨z, hz, hshown, hlater⟩ : ∃ z, Zone.ofName? "America/New_York" = some z ∧
        z.wallAt? 63929194200000000 = some (.at repeatedHour ⟨1, 30, by decide, by decide⟩) ∧
        z.wallAt? 63929201400000000 = some (.at repeatedHour ⟨2, 30, by decide, by decide⟩) :=
      ⟨_, rfl, by decide, by decide⟩
    have hstored : ofLocal (some repeatedHour) (some ⟨1, 30, by decide, by decide⟩)
        "America/New_York" = .ok (some "2026-11-01T05:30:00+00:00") :=
      eq_ok_of_toOption (by decide)
    have hstored' : ofLocal (some repeatedHour) (some ⟨2, 30, by decide, by decide⟩)
        "America/New_York" = .ok (some "2026-11-01T07:30:00+00:00") :=
      eq_ok_of_toOption (by decide)
    obtain ⟨text, hback, horder⟩ := ofLocal_returns.1 "America/New_York" z hz repeatedHour
      (by decide) (by decide) ⟨1, 30, by decide, by decide⟩ ⟨_, hshown⟩
    obtain rfl : text = "2026-11-01T05:30:00+00:00" :=
      Option.some.inj (Except.ok.inj (hback.stored.symm.trans hstored))
    exact ⟨z, hz, hback, horder _ _ (by decide) ⟨_, hlater⟩ hstored'⟩
  · have hstored : ofLocal (some afterCrossing) (some ⟨0, 15, by decide, by decide⟩)
        "Pacific/Kwajalein" (fun _ => some crossingZone) = .ok (some "1993-08-21T12:15:00+00:00") :=
      eq_ok_of_toOption (by decide)
    obtain ⟨text, hback, -⟩ := ofLocal_returns.2 (fun _ => some crossingZone) "Pacific/Kwajalein"
      crossingZone crossing crossing.wallAt? rfl (crossing.govern_self crossing_range)
      afterCrossing (by decide) (by decide) ⟨0, 15, by decide, by decide⟩
      ⟨62881618500000000, by decide⟩
    obtain rfl : text = "1993-08-21T12:15:00+00:00" :=
      Option.some.inj (Except.ok.inj (hback.stored.symm.trans hstored))
    exact hback

end Stamp
end SiteVisit
