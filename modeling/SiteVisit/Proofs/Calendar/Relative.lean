import SiteVisit.Calendar.Relative
import SiteVisit.Proofs.Text.Decimal

namespace SiteVisit.Calendar

def units : List TimeUnit := timeUnits ++ [seconds]

theorem units_eq : units = [⟨day, "day", "days"⟩, ⟨hour, "hour", "hours"⟩,
    ⟨minute, "minute", "minutes"⟩, ⟨second, "second", "seconds"⟩] := rfl

section Durations

variable {d d' : Int} {n n' : Nat} {u u' : TimeUnit}

theorem second_le_micros (h : u ∈ units) : second ≤ u.micros := by
  have hall : ∀ u ∈ units, second ≤ u.micros := by decide
  exact hall u h

theorem micros_pos (h : u ∈ units) : 0 < u.micros :=
  Int.lt_of_lt_of_le (by decide) (second_le_micros h)

theorem lt_of_mul_micros {a b : Int} (hu : u ∈ units) (h : a * u.micros < b * u.micros) : a < b :=
  Int.lt_of_mul_lt_mul_right h (Int.le_of_lt (micros_pos hu))

structure FindsUnit (d : Int) (u : TimeUnit) : Prop where
  mem : u ∈ units
  fits : u.micros ≤ d ∨ (d < second ∧ u = seconds)
  longest : ∀ v ∈ units, v.micros ≤ d → v.micros ≤ u.micros

theorem findsUnit_unitFor (d : Int) : FindsUnit d (unitFor d) := by
  have hsorted : units.Pairwise fun u v => v.micros ≤ u.micros := by decide
  rw [unitFor]
  cases hfind : timeUnits.find? (·.micros ≤ d) with
  | none =>
    refine ⟨List.mem_append_right _ List.mem_cons_self, ?_, fun v hv hfits => ?_⟩
    · exact (Int.lt_or_le d second).elim (fun hlt => .inr ⟨hlt, rfl⟩) .inl
    · rcases List.mem_append.mp hv with hv | hv
      · exact absurd (decide_eq_true hfits) (List.find?_eq_none.mp hfind v hv)
      · obtain rfl := List.mem_singleton.mp hv
        exact Int.le_refl _
  | some u =>
    obtain ⟨hfits, before, after, htimes, hbefore⟩ := List.find?_eq_some_iff_append.mp hfind
    have hunits : units = before ++ u :: (after ++ [seconds]) := by
      rw [units, htimes, List.append_assoc, List.cons_append]
    rw [Option.getD_some]
    refine ⟨hunits ▸ List.mem_append_right _ List.mem_cons_self, .inl (of_decide_eq_true hfits),
      fun v hv hfits => ?_⟩
    rw [hunits] at hv hsorted
    rcases List.mem_append.mp hv with hv | hv
    · exact absurd hfits (by simpa using hbefore v hv)
    · rcases List.mem_cons.mp hv with rfl | hv
      · exact Int.le_refl _
      · exact List.rel_of_pairwise_cons (List.pairwise_append.mp hsorted).2.1 hv

structure Counts (d : Int) (n : Nat) (u : TimeUnit) : Prop extends FindsUnit d u where
  le : n * u.micros ≤ d
  lt : d < (n + 1) * u.micros

theorem counts_unitFor (h : 0 ≤ d) :
    Counts d (d.fdiv (unitFor d).micros).toNat (unitFor d) := by
  have hpos := micros_pos (findsUnit_unitFor d).mem
  have hquotient : ((d.fdiv (unitFor d).micros).toNat : Int) = d / (unitFor d).micros := by
    rw [Int.fdiv_eq_ediv_of_nonneg _ (Int.le_of_lt hpos),
      Int.toNat_of_nonneg (Int.ediv_nonneg h (Int.le_of_lt hpos))]
  refine ⟨findsUnit_unitFor d, ?_, ?_⟩
  · rw [hquotient]
    exact Int.ediv_mul_le d (Int.ne_of_gt hpos)
  · rw [hquotient]
    exact Int.lt_ediv_add_one_mul_self d hpos

namespace Counts

theorem one_le (h : Counts d n u) (hfits : u.micros ≤ d) : 1 ≤ n := by
  have hlt : 1 * u.micros < (n + 1) * u.micros := by
    rw [Int.one_mul]
    exact Int.lt_of_le_of_lt hfits h.lt
  have := lt_of_mul_micros h.mem hlt
  omega

theorem lt_of_longer {v : TimeUnit} {k : Nat} (h : Counts d n u) (hv : v ∈ units)
    (hlonger : u.micros < v.micros) (hk : v.micros = k * u.micros) : n < k := by
  have hsmall : d < v.micros := Int.not_le.mp fun hfits =>
    Int.not_le.mpr hlonger (h.longest v hv hfits)
  have hlt : (n : Int) * u.micros < k * u.micros := Int.lt_of_le_of_lt h.le (hk ▸ hsmall)
  exact Int.ofNat_lt.mp (lt_of_mul_micros h.mem hlt)

theorem mono (h : Counts d n u) (h' : Counts d' n' u') (hle : d ≤ d') :
    n * u.micros ≤ n' * u'.micros := by
  rcases h.fits with hfits | ⟨hsmall, rfl⟩
  · rcases Int.lt_or_eq_of_le (h'.longest u h.mem (Int.le_trans hfits hle)) with hlonger | hsame
    · -- The unit became longer, and there is at least one of the new unit.
      have hsmall : d < u'.micros := Int.not_le.mp fun hfits' =>
        Int.not_le.mpr hlonger (h.longest u' h'.mem hfits')
      have hfits' : u'.micros ≤ d' := h'.fits.resolve_right fun ⟨hshort, _⟩ =>
        Int.not_le.mpr hshort (Int.le_trans (second_le_micros h.mem) (Int.le_trans hfits hle))
      calc
        n * u.micros ≤ d := h.le
        _ ≤ 1 * u'.micros := by rw [Int.one_mul]; exact Int.le_of_lt hsmall
        _ ≤ n' * u'.micros :=
          Int.mul_le_mul_of_nonneg_right (Int.ofNat_le.mpr (h'.one_le hfits'))
            (Int.le_of_lt (micros_pos h'.mem))
    · have hlt : n * u.micros < (n' + 1) * u.micros := by
        calc
          n * u.micros ≤ d := h.le
          _ ≤ d' := hle
          _ < (n' + 1) * u'.micros := h'.lt
          _ = (n' + 1) * u.micros := by rw [hsame]
      rw [← hsame]
      exact Int.mul_le_mul_of_nonneg_right (Int.lt_add_one_iff.mp (lt_of_mul_micros h.mem hlt))
        (Int.le_of_lt (micros_pos h.mem))
  · have hnone : n * seconds.micros < 1 * seconds.micros := by
      rw [Int.one_mul]
      exact Int.lt_of_le_of_lt h.le hsmall
    obtain rfl : n = 0 := by
      have := lt_of_mul_micros h.mem hnone
      omega
    rw [Int.natCast_zero, Int.zero_mul]
    exact Int.mul_nonneg (Int.natCast_nonneg n') (Int.le_of_lt (micros_pos h'.mem))

end Counts

section Words

theorem TimeUnit.toList_count (u : TimeUnit) (n : Nat) : (u.count n).toList =
    (Text.decimal n).toList ++ ' ' :: (if n = 1 then u.one else u.many).toList := by
  simp [TimeUnit.count]

theorem TimeUnit.count_inj (hu : u ∈ units) (hu' : u' ∈ units) (h : u.count n = u'.count n') :
    n = n' ∧ u.micros = u'.micros := by
  have hblank : ∀ u ∈ units, ' ' ∉ u.one.toList ∧ ' ' ∉ u.many.toList := by decide
  have hword {u : TimeUnit} (hu : u ∈ units) (n : Nat) :
      ' ' ∉ (if n = 1 then u.one else u.many).toList := by
    split
    · exact (hblank u hu).1
    · exact (hblank u hu).2
  have hlists := congrArg String.toList h
  rw [toList_count, toList_count] at hlists
  obtain ⟨hnumber, hname⟩ := append_cons_inj (hword hu n) (hword hu' n') hlists
  obtain rfl : n = n' := Text.decimal_inj.mp (String.toList_inj.mp hnumber)
  have hnames : ∀ u ∈ units, ∀ u' ∈ units, u.one.toList = u'.one.toList ∨
      u.many.toList = u'.many.toList → u.micros = u'.micros := by decide
  refine ⟨rfl, hnames u hu u' hu' ?_⟩
  split at hname
  · exact .inl hname
  · exact .inr hname

theorem durationText_eq (d : Int) :
    durationText d = (unitFor d).count (d.fdiv (unitFor d).micros).toNat := rfl

theorem durationText_mono (hd : 0 ≤ d) (hle : d ≤ d') (hu : u ∈ units) (hu' : u' ∈ units)
    (h : durationText d = u.count n) (h' : durationText d' = u'.count n') :
    n * u.micros ≤ n' * u'.micros := by
  obtain ⟨rfl, hmicros⟩ := TimeUnit.count_inj (findsUnit_unitFor d).mem hu h
  obtain ⟨rfl, hmicros'⟩ := TimeUnit.count_inj (findsUnit_unitFor d').mem hu' h'
  rw [← hmicros, ← hmicros']
  exact (counts_unitFor hd).mono (counts_unitFor (Int.le_trans hd hle)) hle

theorem not_beginsWith_durationText (start : String) {c : Char} {cs : List Char}
    (hstart : start.toList = c :: cs) (hc : c.isDigit = false) (d : Int) (rest : String) :
    ¬ start.toList <+: (durationText d ++ rest).toList := by
  obtain ⟨digit, digits, hdigits⟩ := List.exists_cons_of_ne_nil
    (Nat.toDigits_ne_nil (n := (d.fdiv (unitFor d).micros).toNat) (b := 10))
  have hmem : digit ∈ Nat.toDigits 10 (d.fdiv (unitFor d).micros).toNat :=
    hdigits ▸ List.mem_cons_self
  have hdigit : digit.isDigit = true := Nat.isDigit_of_mem_toDigits (by decide) (by decide) hmem
  have hne : c ≠ digit := by
    rintro rfl
    exact Bool.false_ne_true (hc.symm.trans hdigit)
  simp [hstart, durationText_eq, TimeUnit.toList_count, Text.toList_decimal, hdigits, hne]

theorem durationText_append_ne (start : String) {c : Char} {cs : List Char}
    (hstart : start.toList = c :: cs) (hc : c.isDigit = false) (d : Int) (rest x : String) :
    durationText d ++ rest ≠ start ++ x := by
  intro heq
  have hprefix : start.toList <+: (start ++ x).toList := by simp
  exact not_beginsWith_durationText start hstart hc d rest (heq ▸ hprefix)

end Words
end Durations

namespace Phase

variable {p : Phase} {x : String} {d : Int} {toStart sinceEnd : Option Int}

theorem text?_eq_startsIn :
    p.text? = some ("Starts in " ++ x) ↔ ∃ d, p = .startsIn d ∧ x = durationText d := by
  cases p with
  | startsIn d => simp [text?, eq_comm]
  | ended d => simp [text?, ← String.toList_inj]
  | ongoing => simp [text?, ← String.toList_inj]
  | startedAgo d =>
    simpa [text?] using durationText_append_ne "Starts in " rfl (by decide) d " ago" x
  | endsIn d => simp [text?, ← String.toList_inj]
  | unknown => simp [text?]

theorem text?_eq_ended :
    p.text? = some ("Ended " ++ x ++ " ago") ↔ ∃ d, p = .ended d ∧ x = durationText d := by
  cases p with
  | startsIn d => simp [text?, ← String.toList_inj]
  | ended d => simp [text?, String.append_right_inj, eq_comm]
  | ongoing => simp [text?, ← String.toList_inj]
  | startedAgo d =>
    simpa [text?, String.append_assoc] using
      durationText_append_ne "Ended " rfl (by decide) d " ago" (x ++ " ago")
  | endsIn d => simp [text?, ← String.toList_inj]
  | unknown => simp [text?]

theorem text?_eq_ongoing : p.text? = some "Ongoing" ↔ p = .ongoing := by
  cases p with
  | startsIn d => simp [text?, ← String.toList_inj]
  | ended d => simp [text?, ← String.toList_inj]
  | ongoing => simp [text?]
  | startedAgo d =>
    simpa [text?] using durationText_append_ne "Ongoing" rfl (by decide) d " ago" ""
  | endsIn d => simp [text?, ← String.toList_inj]
  | unknown => simp [text?]

theorem text?_eq_startedAgo : p.text? = some (durationText d ++ " ago") ↔
    ∃ d', p = .startedAgo d' ∧ durationText d = durationText d' := by
  have hne (start : String) {c : Char} {cs : List Char} (hstart : start.toList = c :: cs)
      (hc : c.isDigit = false) (x : String) : ¬ start ++ x = durationText d ++ " ago" :=
    (durationText_append_ne start hstart hc d " ago" x).symm
  cases p with
  | startsIn d => simpa [text?] using hne "Starts in " rfl (by decide) _
  | ended d => simpa [text?, String.append_assoc] using hne "Ended " rfl (by decide) _
  | ongoing => simpa [text?] using hne "Ongoing" rfl (by decide) ""
  | startedAgo d => simp [text?, eq_comm]
  | endsIn d => simpa [text?] using hne "Ends in " rfl (by decide) _
  | unknown => simp [text?]

theorem text?_eq_endsIn :
    p.text? = some ("Ends in " ++ x) ↔ ∃ d, p = .endsIn d ∧ x = durationText d := by
  cases p with
  | startsIn d => simp [text?, ← String.toList_inj]
  | ended d => simp [text?, ← String.toList_inj]
  | ongoing => simp [text?, ← String.toList_inj]
  | startedAgo d =>
    simpa [text?] using durationText_append_ne "Ends in " rfl (by decide) d " ago" x
  | endsIn d => simp [text?, eq_comm]
  | unknown => simp [text?]

theorem text?_eq_none : p.text? = none ↔ p = .unknown := by
  cases p <;> simp [text?]

/-- The phase of a point in time in a window of which a bound may be unknown. -/
inductive Lies (t : Int) : Option Int → Option Int → Phase → Prop
  | startsIn {a : Int} {finish : Option Int} : t < a → Lies t (some a) finish (.startsIn (a - t))
  | ended {start : Option Int} {b : Int} : (∀ a ∈ start, a ≤ t) → b < t →
    Lies t start (some b) (.ended (t - b))
  | ongoing {a b : Int} : a ≤ t → t ≤ b → Lies t (some a) (some b) .ongoing
  | startedAgo {a : Int} : a ≤ t → Lies t (some a) none (.startedAgo (t - a))
  | endsIn {b : Int} : t ≤ b → Lies t none (some b) (.endsIn (b - t))
  | unknown : Lies t none none .unknown

theorem lies_ofDistances (t : Int) (start finish : Option Int) :
    Lies t start finish (ofDistances (start.map (· - t)) (finish.map (t - ·))) := by
  cases start with
  | none =>
    cases finish with
    | none => exact .unknown
    | some b =>
      by_cases hended : b < t
      · simpa [ofDistances, hended] using Lies.ended (by simp) hended
      · simpa [ofDistances, hended, Int.neg_sub] using Lies.endsIn (Int.not_lt.mp hended)
  | some a =>
    by_cases hstarts : t < a
    · cases finish <;> simpa [ofDistances, hstarts] using Lies.startsIn hstarts
    · have hstarted : a ≤ t := Int.not_lt.mp hstarts
      cases finish with
      | none => simpa [ofDistances, hstarts, Int.neg_sub] using Lies.startedAgo hstarted
      | some b =>
        by_cases hended : b < t
        · simpa [ofDistances, hstarts, hended] using Lies.ended (by simpa using hstarted) hended
        · simpa [ofDistances, hstarts, hended] using Lies.ongoing hstarted (Int.not_lt.mp hended)

theorem Lies.eq_ofDistances {t : Int} {start finish : Option Int} {p : Phase}
    (h : Lies t start finish p) : p = ofDistances (start.map (· - t)) (finish.map (t - ·)) := by
  cases h with
  | @startsIn a finish hlt => cases finish <;> simp [ofDistances, hlt]
  | @ended start b hstarted hlt =>
    cases start with
    | none => simp [ofDistances, hlt]
    | some a => simp [ofDistances, hlt, Int.not_lt.mpr (hstarted a rfl)]
  | ongoing hstarted hle =>
    simp [ofDistances, Int.not_lt.mpr hstarted, Int.not_lt.mpr hle]
  | @startedAgo a hstarted =>
    have hstarts : ¬ 0 < a - t := by omega
    simp only [ofDistances, Option.map_some, Option.map_none, if_neg hstarts, Int.neg_sub]
  | @endsIn b hle =>
    have hended : ¬ 0 < t - b := by omega
    simp only [ofDistances, Option.map_some, Option.map_none, if_neg hended, Int.neg_sub]
  | unknown => rfl

theorem Lies.unique {t : Int} {start finish : Option Int} {p q : Phase} (h : Lies t start finish p)
    (h' : Lies t start finish q) : p = q :=
  h.eq_ofDistances.trans h'.eq_ofDistances.symm

end Phase

namespace Moment

/-- Where a moment lies: its instant, or what the clock shows if nothing else is known. -/
def position (m : Moment) : Int := m.instant?.getD m.wall.micros

inductive Comparable (a b : Moment) : Prop
  | naive : a.frame = .unknown → b.frame = .unknown → Comparable a b
  | aware : a.frame ≠ .unknown → b.frame ≠ .unknown →
    (∀ z, a.frame = .zone z → b.frame ≠ .zone z) → Comparable a b

variable {a b now : Moment} {start finish : Option Moment}

theorem Comparable.symm (h : Comparable a b) : Comparable b a := by
  cases h with
  | naive ha hb => exact .naive hb ha
  | aware ha hb hzone => exact .aware hb ha fun z hb ha => hzone z ha hb

theorem exists_offset? (h : a.frame ≠ .unknown) : ∃ o, a.offset? = some o := by
  rw [offset?]
  cases hframe : a.frame with
  | unknown => exact absurd hframe h
  | fixed o => exact ⟨o, rfl⟩
  | zone z => exact ⟨_, rfl⟩

theorem Comparable.gap? (h : Comparable a b) : a.gap? b = some (b.position - a.position) := by
  cases h with
  | naive ha hb => simp [Moment.gap?, position, instant?, offset?, ha, hb]
  | aware ha hb hzone =>
    obtain ⟨o, ho⟩ := exists_offset? ha
    obtain ⟨o', ho'⟩ := exists_offset? hb
    by_cases hframe : a.frame = b.frame
    · have hsame : o = o' := by
        cases hfixed : a.frame with
        | unknown => exact absurd hfixed ha
        | fixed =>
          rw [offset?, hfixed] at ho
          rw [offset?, ← hframe, hfixed] at ho'
          exact Option.some.inj (ho.symm.trans ho')
        | zone z => exact absurd (hframe ▸ hfixed) (hzone z hfixed)
      rw [Moment.gap?, if_pos hframe]
      simp only [position, instant?, ho, ho', hsame, Option.map_some, Option.getD_some]
      congr 1
      omega
    · simp [Moment.gap?, if_neg hframe, position, instant?, ho, ho']

end Moment

section Window

variable {now : Moment} {start finish : Option Moment}

theorem phase?_eq (hstart : ∀ a ∈ start, now.Comparable a)
    (hfinish : ∀ b ∈ finish, now.Comparable b) :
    phase? now start finish =
      some (.ofDistances (start.map (·.position - now.position))
        (finish.map (now.position - ·.position))) := by
  have hgap (b : Moment) (hb : b ∈ finish) : b.gap? now = some (now.position - b.position) :=
    (hfinish b hb).symm.gap?
  cases start with
  | none => cases finish <;> simp [phase?, hgap]
  | some a =>
    have hgap' : now.gap? a = some (a.position - now.position) := (hstart a rfl).gap?
    by_cases hstarts : now.position < a.position
    · cases finish <;> simp [phase?, hgap', hstarts, Phase.ofDistances]
    · cases finish <;> simp [phase?, hgap, hgap', hstarts]

/-- What is said of a window at a point in time, and that it is said of no other windows. -/
structure Told (t : Int) (start finish : Option Int) (text : Option String) : Prop where
  startsIn : ∀ x, text = some ("Starts in " ++ x) ↔
    ∃ a ∈ start, t < a ∧ x = durationText (a - t)
  ended : ∀ x, text = some ("Ended " ++ x ++ " ago") ↔
    (∀ a ∈ start, a ≤ t) ∧ ∃ b ∈ finish, b < t ∧ x = durationText (t - b)
  ongoing : text = some "Ongoing" ↔ (∃ a ∈ start, a ≤ t) ∧ ∃ b ∈ finish, t ≤ b
  startedAgo : ∀ d, text = some (durationText d ++ " ago") ↔
    (∃ a ∈ start, a ≤ t ∧ durationText d = durationText (t - a)) ∧ finish = none
  endsIn : ∀ x, text = some ("Ends in " ++ x) ↔
    start = none ∧ ∃ b ∈ finish, t ≤ b ∧ x = durationText (b - t)
  nothing : text = none ↔ start = none ∧ finish = none

theorem Phase.Lies.told {t : Int} {start finish : Option Int} {p : Phase}
    (h : Lies t start finish p) : Told t start finish p.text? where
  startsIn x := by
    rw [Phase.text?_eq_startsIn]
    constructor
    · rintro ⟨d, rfl, rfl⟩
      cases h with
      | startsIn hlt => exact ⟨_, rfl, hlt, rfl⟩
    · rintro ⟨a, rfl, hlt, rfl⟩
      exact ⟨_, h.unique (.startsIn hlt), rfl⟩
  ended x := by
    rw [Phase.text?_eq_ended]
    constructor
    · rintro ⟨d, rfl, rfl⟩
      cases h with
      | ended hstarted hlt => exact ⟨hstarted, _, rfl, hlt, rfl⟩
    · rintro ⟨hstarted, b, rfl, hlt, rfl⟩
      exact ⟨_, h.unique (.ended hstarted hlt), rfl⟩
  ongoing := by
    rw [Phase.text?_eq_ongoing]
    constructor
    · rintro rfl
      cases h with
      | ongoing hstarted hle => exact ⟨⟨_, rfl, hstarted⟩, _, rfl, hle⟩
    · rintro ⟨⟨a, rfl, hstarted⟩, b, rfl, hle⟩
      exact h.unique (.ongoing hstarted hle)
  startedAgo d := by
    rw [Phase.text?_eq_startedAgo]
    constructor
    · rintro ⟨d, rfl, heq⟩
      cases h with
      | startedAgo hstarted => exact ⟨⟨_, rfl, hstarted, heq⟩, rfl⟩
    · rintro ⟨⟨a, rfl, hstarted, heq⟩, rfl⟩
      exact ⟨_, h.unique (.startedAgo hstarted), heq⟩
  endsIn x := by
    rw [Phase.text?_eq_endsIn]
    constructor
    · rintro ⟨d, rfl, rfl⟩
      cases h with
      | endsIn hle => exact ⟨rfl, _, rfl, hle, rfl⟩
    · rintro ⟨rfl, b, rfl, hle, rfl⟩
      exact ⟨_, h.unique (.endsIn hle), rfl⟩
  nothing := by
    rw [Phase.text?_eq_none]
    constructor
    · rintro rfl
      cases h
      exact ⟨rfl, rfl⟩
    · rintro ⟨rfl, rfl⟩
      exact h.unique .unknown

/-- Whatever moments can be compared with the present one, the text about them is the one that their
order asks for. The words of a duration name its longest unit and how many of them fit into it, and
those of a longer duration do not say less. -/
theorem phase?_told (hstart : ∀ a ∈ start, now.Comparable a)
    (hfinish : ∀ b ∈ finish, now.Comparable b) :
    (∃ p, phase? now start finish = some p ∧
      Told now.position (start.map Moment.position) (finish.map Moment.position) p.text?) ∧
    (∀ d, 0 ≤ d → ∃ n u, Counts d n u ∧
      durationText d = Text.decimal n ++ " " ++ (if n = 1 then u.one else u.many) ∧
      (u ≠ seconds → 1 ≤ n) ∧ (u.micros = hour → n < 24) ∧
      (u.micros = minute ∨ u.micros = second → n < 60)) ∧
    ∀ d d', 0 ≤ d → d ≤ d' → ∀ u ∈ units, ∀ u' ∈ units, ∀ n n', durationText d = u.count n →
      durationText d' = u'.count n' → n * u.micros ≤ n' * u'.micros := by
  refine ⟨⟨_, phase?_eq hstart hfinish, ?_⟩, fun d hd => ?_, fun d d' hd hle u hu u' hu' n n' =>
    durationText_mono hd hle hu hu'⟩
  · have hlies := Phase.lies_ofDistances now.position (start.map Moment.position)
      (finish.map Moment.position)
    rw [Option.map_map, Option.map_map] at hlies
    exact hlies.told
  · have hcounts := counts_unitFor hd
    refine ⟨_, _, hcounts, ?_, fun hu => ?_, fun hu => ?_, fun hu => ?_⟩
    · simp [durationText_eq, TimeUnit.count]
    · exact hcounts.one_le (hcounts.fits.resolve_right fun hsmall => hu hsmall.2)
    · exact hcounts.lt_of_longer (v := ⟨day, "day", "days"⟩) (by simp [units_eq])
        (by rw [hu]; decide) (by rw [hu]; decide)
    · rcases hu with hu | hu
      · exact hcounts.lt_of_longer (v := ⟨hour, "hour", "hours"⟩) (by simp [units_eq])
          (by rw [hu]; decide) (by rw [hu]; decide)
      · exact hcounts.lt_of_longer (v := ⟨minute, "minute", "minutes"⟩) (by simp [units_eq])
          (by rw [hu]; decide) (by rw [hu]; decide)

def springNoon : Moment :=
  ⟨⟨⟨2024, 3, 23, by decide, by decide, by decide⟩, 12, 0, 0, 0, by decide⟩, .fixed 0⟩

def springAfternoon : Moment :=
  ⟨⟨⟨2024, 3, 23, by decide, by decide, by decide⟩, 15, 30, 0, 0, by decide⟩, .fixed hour⟩

theorem phase?_told_afternoon : ∃ p, phase? springNoon (some springAfternoon) none = some p ∧
    p.text? = some "Starts in 2 hours" := by
  have hcomparable : springNoon.Comparable springAfternoon :=
    .aware (by decide) (by decide) fun z hz => nomatch hz
  have hlater : springNoon.position < springAfternoon.position := by decide
  have hwords : "2 hours" = durationText (springAfternoon.position - springNoon.position) := by
    decide
  have hstart : ∀ a ∈ some springAfternoon, springNoon.Comparable a := fun a ha =>
    Option.some.inj ha ▸ hcomparable
  have hfinish : ∀ b ∈ (none : Option Moment), springNoon.Comparable b := fun b hb => nomatch hb
  obtain ⟨⟨p, hp, htold⟩, -⟩ := phase?_told hstart hfinish
  exact ⟨p, hp, (htold.startsIn "2 hours").mpr ⟨_, rfl, hlater, hwords⟩⟩

end Window
end SiteVisit.Calendar
