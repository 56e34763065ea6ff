import SiteVisit.Mapping.Transform
import SiteVisit.Proofs.Calendar.Ranges
import SiteVisit.Proofs.Mapping.Rows
import SiteVisit.Proofs.Text.Letters
import SiteVisit.Proofs.Text.Spaced

/-!
The language of the time labels: how each shape is written, and which times it means. No label has
two shapes, nor two readings of one, so the order in which the shapes are tried is of no account.
-/

namespace SiteVisit.Calendar

def Meridiem.letter : Meridiem → Char
  | .am => 'a'
  | .pm => 'p'

namespace TimeLabel

open Text

section Grammar

def IsLetter (l c : Char) : Prop := Pattern.sameChar true l c = true

def IsGap (cs : List Char) : Prop := ∀ c ∈ cs, isBlank c = true

def IsPoint (cs : List Char) : Prop := cs = [] ∨ cs = ['.']

inductive IsClock : List Char → Reading → Prop
  | short {h a b} : isDigit h = true → isDigit a = true → isDigit b = true →
      IsClock [h, ':', a, b] ⟨digitsValue [h], digitsValue [a, b]⟩
  | long {g h a b} : isDigit g = true → isDigit h = true → isDigit a = true → isDigit b = true →
      IsClock [g, h, ':', a, b] ⟨digitsValue [g, h], digitsValue [a, b]⟩

inductive IsHalf : List Char → Meridiem → Prop
  | written {c dot gap l last m} : IsLetter m.letter c → IsPoint dot → IsGap gap →
      IsLetter 'm' l → IsPoint last → IsHalf (c :: (dot ++ (gap ++ l :: last))) m

inductive IsTimed : List Char → Reading → Meridiem → Prop
  | written {clock gap half r m} : IsClock clock r → IsGap gap → IsHalf half m →
      IsTimed (clock ++ (gap ++ half)) r m

inductive Writes : List Char → Label → Prop
  | upTo {u p gap t o gap' timed r m} : IsLetter 'u' u → IsLetter 'p' p →
      IsGap gap → gap ≠ [] → IsLetter 't' t → IsLetter 'o' o → IsGap gap' → gap' ≠ [] →
      IsTimed timed r m → Writes (u :: p :: (gap ++ t :: o :: (gap' ++ timed))) (.upTo r m)
  | single {timed r m} : IsTimed timed r m → Writes timed (.single r m)
  | range {clock gap dash gap' timed s f m} : IsClock clock s → IsGap gap → isDash dash = true →
      IsGap gap' → IsTimed timed f m →
      Writes (clock ++ (gap ++ dash :: (gap' ++ timed))) (.range s f m)

end Grammar

section Characters

def letters : List Char := ['u', 'p', 't', 'o', 'a', 'm']

variable {l c : Char}

theorem isLetter_iff (hl : l ∈ letters) : IsLetter l c ↔ asciiLower c = l := by
  have hall : letters.all fun l => StandsAlone l := by decide +kernel
  exact (of_decide_eq_true (List.all_eq_true.mp hall l hl)).sameChar_iff

theorem of_isLetter (hl : l ∈ letters) (h : IsLetter l c) :
    isBlank c = false ∧ isDigit c = false ∧ c ≠ '.' := by
  have hall : letters.all fun l => [l, Char.ofNat (l.toNat - 32)].all fun c =>
      isBlank c = false ∧ isDigit c = false ∧ c ≠ '.' := by decide
  have hpos : letters.all fun l => l.toNat ≠ 0 := by decide
  have hzero : l.toNat ≠ 0 := of_decide_eq_true (List.all_eq_true.mp hpos l hl)
  refine of_decide_eq_true (List.all_eq_true.mp (List.all_eq_true.mp hall l hl) c ?_)
  simpa using eq_of_asciiLower hzero ((isLetter_iff hl).mp h)

theorem not_isLetter_of_isDigit (hl : l ∈ letters) (h : isDigit c = true) : ¬ IsLetter l c := by
  intro hc
  rw [(of_isLetter hl hc).2.1] at h
  cases h

theorem isBlank_of_isDigit (h : isDigit c = true) : isBlank c = false := by
  rw [← Bool.not_eq_true]
  intro hblank
  have hnone := forall_of_isBlank (p := fun c => isDigit c = false) (by decide) hblank
  rw [h] at hnone
  cases hnone

theorem of_isDash (h : isDash c = true) : isBlank c = false ∧ asciiLower c = c ∧ c ∉ letters := by
  simp only [isDash, Bool.or_eq_true, beq_iff_eq] at h
  obtain (rfl | rfl) | rfl := h <;> decide

theorem Meridiem.letter_mem (m : Meridiem) : m.letter ∈ letters := by cases m <;> decide

end Characters

section Pieces

variable {cs gap rest : List Char}

theorem trimStart_append (hgap : IsGap gap) (hcs : ∀ c ∈ cs.head?, isBlank c = false) :
    trimStart (gap ++ cs) = cs := by
  rw [trimStart, List.dropWhile_append_of_pos hgap]
  cases cs with
  | nil => rfl
  | cons c cs => rw [List.dropWhile_cons_of_neg (by simpa using hcs c rfl)]

theorem exists_trimStart (cs : List Char) : ∃ gap, IsGap gap ∧ cs = gap ++ trimStart cs :=
  ⟨cs.takeWhile isBlank, fun _ hc => List.mem_takeWhile_imp hc,
    List.takeWhile_append_dropWhile.symm⟩

theorem blanks?_append (hgap : IsGap gap) (hne : gap ≠ [])
    (hcs : ∀ c ∈ cs.head?, isBlank c = false) : blanks? (gap ++ cs) = some cs := by
  obtain ⟨c, gap, rfl⟩ := List.exists_cons_of_ne_nil hne
  obtain ⟨hc, hgap⟩ := List.forall_mem_cons.mp hgap
  rw [List.cons_append, blanks?, if_pos hc, trimStart_append hgap hcs]

theorem exists_of_blanks? (h : blanks? cs = some rest) :
    ∃ gap, IsGap gap ∧ gap ≠ [] ∧ cs = gap ++ rest := by
  cases cs with
  | nil => cases h
  | cons c cs =>
    rw [blanks?] at h
    split at h
    · next hc =>
      cases h
      obtain ⟨gap, hgap, hcs⟩ := exists_trimStart cs
      exact ⟨c :: gap, List.forall_mem_cons.mpr ⟨hc, hgap⟩, List.cons_ne_nil c gap,
        congrArg (c :: ·) hcs⟩
    · cases h

theorem skipDot_append {dot : List Char} (hdot : IsPoint dot) (hcs : ∀ c ∈ cs.head?, c ≠ '.') :
    skipDot (dot ++ cs) = cs := by
  rcases hdot with rfl | rfl
  · rw [List.nil_append, skipDot]
    rintro ds rfl
    exact hcs '.' rfl rfl
  · rfl

theorem exists_skipDot (cs : List Char) : ∃ dot, IsPoint dot ∧ cs = dot ++ skipDot cs := by
  rw [skipDot.eq_def]
  split
  · exact ⟨['.'], .inr rfl, rfl⟩
  · exact ⟨[], .inl rfl, rfl⟩

theorem letter?_cons {l c : Char} (hl : l ∈ letters) (hc : IsLetter l c) :
    letter? l (c :: rest) = some rest := by
  rw [letter?, if_pos (beq_iff_eq.mpr ((isLetter_iff hl).mp hc))]

theorem exists_of_letter? {l : Char} (hl : l ∈ letters) (h : letter? l cs = some rest) :
    ∃ c, IsLetter l c ∧ cs = c :: rest := by
  cases cs with
  | nil => cases h
  | cons c cs =>
    rw [letter?] at h
    split at h
    · next hc =>
      cases h
      exact ⟨c, (isLetter_iff hl).mpr (beq_iff_eq.mp hc), rfl⟩
    · cases h

end Pieces

section Clocks

variable {cs rest clock : List Char} {r : Reading} {m : Meridiem}

theorem reading?_append (h : IsClock clock r) (rest : List Char) :
    reading? (clock ++ rest) = some (r, rest) := by
  have hcolon : isDigit ':' = false := by decide
  cases h with
  | short hh ha hb => simp [reading?, minute?, hh, ha, hb, hcolon]
  | long hg hh ha hb => simp [reading?, minute?, hg, hh, ha, hb]

theorem exists_of_minute? {n : Nat} (h : minute? cs = some (n, rest)) :
    ∃ a b, isDigit a = true ∧ isDigit b = true ∧ n = digitsValue [a, b] ∧
      cs = ':' :: a :: b :: rest := by
  rw [minute?.eq_def] at h
  split at h
  · next a b ds =>
    split at h
    · next hdigits =>
      obtain ⟨ha, hb⟩ := Bool.and_eq_true_iff.mp hdigits
      cases h
      exact ⟨a, b, ha, hb, rfl, rfl⟩
    · cases h
  · cases h

theorem exists_of_reading? (h : reading? cs = some (r, rest)) :
    ∃ clock, IsClock clock r ∧ cs = clock ++ rest := by
  rw [reading?.eq_def] at h
  split at h
  · next g k ds =>
    split at h
    · next hdigits =>
      obtain ⟨hg, hk⟩ := Bool.and_eq_true_iff.mp hdigits
      obtain ⟨⟨n, ds'⟩, hminute, heq⟩ := Option.map_eq_some_iff.mp h
      cases heq
      obtain ⟨a, b, ha, hb, rfl, rfl⟩ := exists_of_minute? hminute
      exact ⟨_, .long hg hk ha hb, rfl⟩
    · split at h
      · next hg =>
        obtain ⟨⟨n, ds'⟩, hminute, heq⟩ := Option.map_eq_some_iff.mp h
        cases heq
        obtain ⟨a, b, ha, hb, rfl, hds⟩ := exists_of_minute? hminute
        cases hds
        exact ⟨_, .short hg ha hb, rfl⟩
      · cases h
  · cases h

theorem isDigit_head_clock (h : IsClock clock r) (rest : List Char) :
    ∀ c ∈ (clock ++ rest).head?, isDigit c = true := by
  intro c hc
  cases h with
  | short hh => exact Option.some.inj hc ▸ hh
  | long hg => exact Option.some.inj hc ▸ hg

def half? (c : Char) : Option Meridiem :=
  if asciiLower c == 'a' then some .am else if asciiLower c == 'p' then some .pm else none

theorem half?_eq_some {c : Char} : half? c = some m ↔ IsLetter m.letter c := by
  rw [isLetter_iff (Meridiem.letter_mem m), half?]
  cases m with
  | am => simp [Meridiem.letter]
  | pm =>
    simp only [Meridiem.letter, beq_iff_eq]
    constructor
    · intro h
      split at h
      · cases h
      · split at h
        · assumption
        · cases h
    · intro h
      simp [h]

theorem meridiem?_cons (c : Char) (cs : List Char) : meridiem? (c :: cs) =
    (half? c).bind fun m => (letter? 'm' (trimStart (skipDot cs))).bind fun rest =>
      some (m, skipDot rest) := by
  rw [meridiem?, half?]
  split
  · rfl
  · split <;> rfl

theorem meridiem?_of_isHalf (h : IsHalf cs m) : meridiem? cs = some (m, []) := by
  cases h with
  | @written c dot gap l last m hc hdot hgap hl hlast =>
    have hm : 'm' ∈ letters := by decide
    obtain ⟨hsolid, -, hpoint⟩ := of_isLetter hm hl
    have hdots : skipDot (dot ++ (gap ++ l :: last)) = gap ++ l :: last := by
      refine skipDot_append hdot fun d hd => ?_
      cases gap with
      | nil => exact Option.some.inj hd ▸ hpoint
      | cons g gap =>
        obtain rfl := Option.some.inj hd
        rintro rfl
        exact absurd (hgap '.' List.mem_cons_self) (by decide)
    have hend : skipDot last = [] := by rcases hlast with rfl | rfl <;> rfl
    rw [meridiem?_cons, half?_eq_some.mpr hc, hdots, trimStart_append hgap (by simpa using hsolid),
      Option.bind_some, letter?_cons hm hl, Option.bind_some, hend]

theorem isHalf_of_meridiem? (h : meridiem? cs = some (m, [])) : IsHalf cs m := by
  cases cs with
  | nil => cases h
  | cons c cs =>
    rw [meridiem?_cons, Option.bind_eq_some_iff] at h
    obtain ⟨half, hhalf, h⟩ := h
    obtain ⟨rest, hrest, heq⟩ := Option.bind_eq_some_iff.mp h
    obtain ⟨rfl, hend⟩ := Prod.mk.inj (Option.some.inj heq)
    obtain ⟨dot, hdot, hcs⟩ := exists_skipDot cs
    obtain ⟨gap, hgap, hds⟩ := exists_trimStart (skipDot cs)
    obtain ⟨l, hl, hls⟩ := exists_of_letter? (by decide) hrest
    obtain ⟨last, hlast, hend'⟩ := exists_skipDot rest
    rw [hend, List.append_nil] at hend'
    rw [hcs, hds, hls, hend']
    exact .written (half?_eq_some.mp hhalf) hdot hgap hl hlast

theorem lastClock?_of_isTimed (h : IsTimed cs r m) : lastClock? cs = some (r, m) := by
  cases h with
  | @written clock gap half r m hclock hgap hhalf =>
    have hsolid : ∀ c ∈ half.head?, isBlank c = false := by
      cases hhalf with
      | written hc =>
        rintro d hd
        exact Option.some.inj hd ▸ (of_isLetter (Meridiem.letter_mem m) hc).1
    simp [lastClock?, reading?_append hclock, trimStart_append hgap hsolid,
      meridiem?_of_isHalf hhalf]

theorem isTimed_of_lastClock? (h : lastClock? cs = some (r, m)) : IsTimed cs r m := by
  simp only [lastClock?, Option.bind_eq_bind, Option.bind_eq_some_iff, Prod.exists] at h
  obtain ⟨s, ds, hreading, half, es, hmeridiem, h⟩ := h
  split at h
  · next hempty =>
    cases h
    rw [List.isEmpty_iff.mp hempty] at hmeridiem
    obtain ⟨clock, hclock, rfl⟩ := exists_of_reading? hreading
    obtain ⟨gap, hgap, hds⟩ := exists_trimStart ds
    rw [hds]
    exact .written hclock hgap (isHalf_of_meridiem? hmeridiem)
  · cases h

theorem isDigit_head_timed (h : IsTimed cs r m) : ∀ c ∈ cs.head?, isDigit c = true := by
  cases h with
  | written hclock => exact isDigit_head_clock hclock _

theorem isBlank_head_timed (h : IsTimed cs r m) : ∀ c ∈ cs.head?, isBlank c = false :=
  fun c hc => isBlank_of_isDigit (isDigit_head_timed h c hc)

end Clocks

section Shapes

variable {cs : List Char} {l : Label}

theorem writes_of_upTo? (h : upTo? cs = some l) : Writes cs l := by
  simp only [upTo?, Option.bind_eq_bind, Option.bind_eq_some_iff, Option.pure_def, Prod.exists,
    Option.some.injEq] at h
  obtain ⟨_, hreadU, _, hreadP, _, hskip, _, hreadT, _, hreadO, timed, hskip', r, m, htimed,
    rfl⟩ := h
  obtain ⟨u, hu, rfl⟩ := exists_of_letter? (by decide) hreadU
  obtain ⟨p, hp, rfl⟩ := exists_of_letter? (by decide) hreadP
  obtain ⟨gap, hgap, hne, rfl⟩ := exists_of_blanks? hskip
  obtain ⟨t, ht, rfl⟩ := exists_of_letter? (by decide) hreadT
  obtain ⟨o, ho, rfl⟩ := exists_of_letter? (by decide) hreadO
  obtain ⟨gap', hgap', hne', rfl⟩ := exists_of_blanks? hskip'
  exact .upTo hu hp hgap hne ht ho hgap' hne' (isTimed_of_lastClock? htimed)

theorem writes_of_single? (h : single? cs = some l) : Writes cs l := by
  simp only [single?, Option.bind_eq_bind, Option.bind_eq_some_iff, Option.pure_def, Prod.exists,
    Option.some.injEq] at h
  obtain ⟨r, m, htimed, rfl⟩ := h
  exact .single (isTimed_of_lastClock? htimed)

theorem writes_of_range? (h : range? cs = some l) : Writes cs l := by
  simp only [range?, Option.bind_eq_bind, Option.bind_eq_some_iff, Option.pure_def, Prod.exists,
    Option.some.injEq] at h
  obtain ⟨s, ds, hreading, timed, hdash, f, m, htimed, rfl⟩ := h
  obtain ⟨clock, hclock, rfl⟩ := exists_of_reading? hreading
  obtain ⟨gap, hgap, hds⟩ := exists_trimStart ds
  rw [dash?] at hdash
  split at hdash
  · next d es htrim =>
    split at hdash
    · next hd =>
      cases hdash
      obtain ⟨gap', hgap', hes⟩ := exists_trimStart es
      rw [hds, htrim, hes]
      exact .range hclock hgap hd hgap' (isTimed_of_lastClock? htimed)
    · cases hdash
  · cases hdash

theorem upTo?_of_isDigit (h : ∀ c ∈ cs.head?, isDigit c = true) : upTo? cs = none := by
  have hu : letter? 'u' cs = none := by
    rw [Option.eq_none_iff_forall_ne_some]
    intro rest hrest
    obtain ⟨c, hc, rfl⟩ := exists_of_letter? (by decide) hrest
    exact not_isLetter_of_isDigit (by decide) (h c rfl) hc
  simp [upTo?, hu]

theorem read?_of_writes (h : Writes cs l) : Label.read? cs = some l := by
  cases h with
  | @upTo u p gap t o gap' timed r m hu hp hgap hne ht ho hgap' hne' htimed =>
    have hsolid : isBlank t = false := (of_isLetter (by decide) ht).1
    have hskip : blanks? (gap ++ t :: o :: (gap' ++ timed)) = some (t :: o :: (gap' ++ timed)) :=
      blanks?_append hgap hne (by simpa using hsolid)
    simp [Label.read?, upTo?, letter?_cons (by decide) hu, letter?_cons (by decide) hp, hskip,
      letter?_cons (by decide) ht, letter?_cons (by decide) ho,
      blanks?_append hgap' hne' (isBlank_head_timed htimed), lastClock?_of_isTimed htimed]
  | single htimed =>
    simp [Label.read?, upTo?_of_isDigit (isDigit_head_timed htimed), single?,
      lastClock?_of_isTimed htimed]
  | @range clock gap dash gap' timed s f m hclock hgap hdash hgap' htimed =>
    obtain ⟨hsolid, hlower, hletters⟩ := of_isDash hdash
    have hread := reading?_append hclock (gap ++ dash :: (gap' ++ timed))
    have htrim : trimStart (gap ++ dash :: (gap' ++ timed)) = dash :: (gap' ++ timed) :=
      trimStart_append hgap (by simpa using hsolid)
    have hhalf : half? dash = none := by
      rw [Option.eq_none_iff_forall_ne_some]
      intro m hm
      have hletter := (isLetter_iff (Meridiem.letter_mem m)).mp (half?_eq_some.mp hm)
      exact hletters (hlower ▸ hletter ▸ Meridiem.letter_mem m)
    -- What follows the first clock is no half of the day, so this is not read as a single clock.
    have hnoClock : lastClock? (clock ++ (gap ++ dash :: (gap' ++ timed))) = none := by
      simp [lastClock?, hread, htrim, meridiem?_cons, hhalf]
    simp [Label.read?, upTo?_of_isDigit (isDigit_head_clock hclock _), single?, hnoClock, range?,
      hread, dash?, htrim, hdash, trimStart_append hgap' (isBlank_head_timed htimed),
      lastClock?_of_isTimed htimed]

theorem read?_eq_some : Label.read? cs = some l ↔ Writes cs l := by
  refine ⟨fun h => ?_, read?_of_writes⟩
  rw [Label.read?] at h
  cases hupTo : upTo? cs with
  | some found =>
    rw [hupTo] at h
    exact writes_of_upTo? (hupTo.trans h)
  | none =>
    rw [hupTo] at h
    cases hsingle : single? cs with
    | some found =>
      rw [hsingle] at h
      exact writes_of_single? (hsingle.trans h)
    | none =>
      rw [hsingle] at h
      exact writes_of_range? h

end Shapes
section Meaning

def Reading.InRange (r : Reading) : Prop := (1 ≤ r.hour ∧ r.hour ≤ 12) ∧ r.minute ≤ 59

instance : DecidablePred Reading.InRange := fun _ => inferInstanceAs (Decidable (_ ∧ _))

structure Reading.IsTime (r : Reading) (m : Meridiem) (t : TimeOfDay) : Prop where
  inRange : r.InRange
  hour : t.hour = hourOf r.hour m
  minute : t.minute = r.minute

def Label.clocks : Label → List Reading
  | .upTo r _ => [r]
  | .single r _ => [r]
  | .range s f _ => [s, f]

/-- The times that a label means. The start of a range has the half of the day that its end has; if
it were later than the end, it is a time of the morning. -/
inductive Means : Label → TimeRange → Prop
  | upTo {r m t} : r.IsTime m t → Means (.upTo r m) { finish := some t }
  | single {r m t} : r.IsTime m t → Means (.single r m) { start := some t }
  | range {s f m start finish} : s.IsTime m start → f.IsTime m finish → start.AtMost finish →
      Means (.range s f m) { start := some start, finish := some finish }
  | morning {s f m later start finish} : s.IsTime m later → f.IsTime m finish →
      ¬ later.AtMost finish → s.IsTime .am start →
      Means (.range s f m) { start := some start, finish := some finish }

variable {r : Reading} {m : Meridiem} {t : TimeOfDay} {l : Label} {times : TimeRange}

theorem Reading.IsTime.unique {t' : TimeOfDay} (h : r.IsTime m t) (h' : r.IsTime m t') :
    t = t' := by
  obtain ⟨hour, minute, _, _⟩ := t
  obtain ⟨hour', minute', _, _⟩ := t'
  obtain rfl : hour = hour' := h.hour.trans h'.hour.symm
  obtain rfl : minute = minute' := h.minute.trans h'.minute.symm
  rfl

theorem exists_time? (h : r.InRange) (m : Meridiem) : ∃ t, r.time? m = some t := by
  obtain ⟨⟨hlow, hhigh⟩, hminute⟩ := h
  have hrange : 1 ≤ (r.hour : Int) ∧ (r.hour : Int) ≤ 12 := by omega
  have hm : 0 ≤ (r.minute : Int) ∧ (r.minute : Int) < 60 := by omega
  have hclock : ∀ hour : Int, 0 ≤ hour ∧ hour < 24 →
      ∃ t, (TimeOfDay.ofClock hour r.minute).toOption = some t := by
    intro hour hh
    rw [TimeOfDay.ofClock, dif_pos hh, dif_pos hm]
    exact ⟨_, rfl⟩
  rw [Reading.time?, TimeOfDay.ofMeridiem, if_pos hrange]
  apply hclock
  cases m with
  | am => dsimp only; split <;> omega
  | pm => dsimp only; split <;> omega

theorem time?_eq_some : r.time? m = some t ↔ r.IsTime m t := by
  have hto (t' : TimeOfDay) (h : r.time? m = some t') : r.IsTime m t' := by
    obtain ⟨hhour, hminute⟩ := hour_of_time? h
    have hlast := t'.minute_lt
    rw [Reading.time?, TimeOfDay.ofMeridiem] at h
    split at h
    · next hrange => exact ⟨⟨by omega, by omega⟩, hhour, hminute⟩
    · cases h
  refine ⟨hto t, fun h => ?_⟩
  obtain ⟨t', ht'⟩ := exists_time? h.inRange m
  rw [ht', (hto t' ht').unique h]

theorem times?_eq_some : l.times? = some times ↔ Means l times := by
  cases l with
  | upTo r m =>
    simp only [Label.times?, Option.map_eq_some_iff, time?_eq_some]
    constructor
    · rintro ⟨t, ht, rfl⟩
      exact .upTo ht
    · intro h
      cases h with
      | upTo ht => exact ⟨_, ht, rfl⟩
  | single r m =>
    simp only [Label.times?, Option.map_eq_some_iff, time?_eq_some]
    constructor
    · rintro ⟨t, ht, rfl⟩
      exact .single ht
    · intro h
      cases h with
      | single ht => exact ⟨_, ht, rfl⟩
  | range s f m =>
    simp only [Label.times?, Option.bind_eq_bind, Option.bind_eq_some_iff, time?_eq_some]
    constructor
    · rintro ⟨finish, hfinish, later, hlater, h⟩
      split at h
      · next hle =>
        cases h
        exact .range hlater hfinish ((TimeOfDay.minutes_le_iff _ _).mp hle)
      · next hnot =>
        obtain ⟨start, hstart, h⟩ := Option.bind_eq_some_iff.mp h
        cases h
        exact .morning hlater hfinish (mt (TimeOfDay.minutes_le_iff _ _).mpr hnot)
          (time?_eq_some.mp hstart)
    · intro h
      cases h with
      | range hs hf hle =>
        exact ⟨_, hf, _, hs, by rw [if_pos ((TimeOfDay.minutes_le_iff _ _).mpr hle)]; rfl⟩
      | morning hs hf hnot hmorning =>
        refine ⟨_, hf, _, hs, ?_⟩
        rw [if_neg (mt (TimeOfDay.minutes_le_iff _ _).mp hnot), time?_eq_some.mpr hmorning]
        rfl

theorem exists_means : (∃ times, Means l times) ↔ ∀ c ∈ l.clocks, c.InRange := by
  constructor
  · rintro ⟨times, h⟩
    cases h with
    | upTo h => simpa [Label.clocks] using h.inRange
    | single h => simpa [Label.clocks] using h.inRange
    | range hs hf => simpa [Label.clocks] using ⟨hs.inRange, hf.inRange⟩
    | morning hs hf => simpa [Label.clocks] using ⟨hs.inRange, hf.inRange⟩
  · intro h
    have htime {c : Reading} (hc : c ∈ l.clocks) (m : Meridiem) : ∃ t, c.IsTime m t :=
      (exists_time? (h c hc) m).imp fun _ => time?_eq_some.mp
    cases l with
    | upTo r m =>
      obtain ⟨t, ht⟩ := htime (List.mem_singleton_self r) m
      exact ⟨_, .upTo ht⟩
    | single r m =>
      obtain ⟨t, ht⟩ := htime (List.mem_singleton_self r) m
      exact ⟨_, .single ht⟩
    | range s f m =>
      have hs : s ∈ (Label.range s f m).clocks := .head _
      obtain ⟨finish, hfinish⟩ := htime (.tail _ (.head _)) m
      obtain ⟨start, hstart⟩ := htime hs m
      obtain ⟨morning, hmorning⟩ := htime hs .am
      by_cases hle : start.AtMost finish
      · exact ⟨_, .range hstart hfinish hle⟩
      · exact ⟨_, .morning hstart hfinish hle hmorning⟩

end Meaning

section Labels

theorem trim_eq_empty {text : String} : trim text = "" ↔ trimChars text.toList = [] := by
  rw [trim, ← String.toList_inj, String.toList_ofList]
  rfl

theorem parse_eq_some {text : String} {times : TimeRange} : parse text = some times ↔
    trim text = "" ∧ times = {} ∨ ∃ l, Writes (trim text).toList l ∧ Means l times := by
  rw [parse, parseChars, trim_eq_empty, trim, String.toList_ofList]
  split
  · next hempty =>
    have hnil := List.isEmpty_iff.mp hempty
    have hnone : ∀ l, ¬ Writes [] l := fun l hl => by
      have hread := read?_eq_some.mpr hl
      cases hread
    rw [hnil]
    simp [hnone, eq_comm]
  · next hne =>
    have hnil : trimChars text.toList ≠ [] := mt List.isEmpty_iff.mpr hne
    simp only [hnil, false_and, false_or, Option.bind_eq_some_iff, read?_eq_some, times?_eq_some]

theorem findSome?_shapes {shapes : List (List Char → Option Label)}
    (h : shapes.Perm [upTo?, single?, range?]) (cs : List Char) :
    shapes.findSome? (· cs) = Label.read? cs := by
  cases hfind : shapes.findSome? (· cs) with
  | some l =>
    obtain ⟨shape, hshape, hl⟩ := List.exists_of_findSome?_eq_some hfind
    have hmem := h.mem_iff.mp hshape
    simp only [List.mem_cons, List.not_mem_nil, or_false] at hmem
    refine (read?_of_writes ?_).symm
    rcases hmem with rfl | rfl | rfl
    · exact writes_of_upTo? hl
    · exact writes_of_single? hl
    · exact writes_of_range? hl
  | none =>
    have hnone (shape) (hshape : shape ∈ [upTo?, single?, range?]) : shape cs = none :=
      List.findSome?_eq_none_iff.mp hfind shape (h.mem_iff.mpr hshape)
    rw [Label.read?, hnone upTo? (.head _), hnone single? (.tail _ (.head _)),
      hnone range? (.tail _ (.tail _ (.head _)))]
    rfl

theorem timeRange_text (text : String) : Transform.timeRange (.text text) = match parse text with
    | some times => .ok (.range times)
    | none => .error (.ofMapping (.unparseableTime (trim text))) := by
  rw [Transform.timeRange, Transform.timeRangeOf, Datum.words_text]
  cases parse text <;> rfl

/-- The label of a text has one shape at most, and the order in which the shapes are tried is of no
account. A text is read exactly if it is blank, or if its label has a shape and a clock of twelve
hours shows each clock of it; its times are then what the label means. Any other text is a time that
cannot be made out. -/
theorem timeRange_language (text : String) :
    (∀ l l', Writes (trim text).toList l → Writes (trim text).toList l' → l = l') ∧
    (∀ shapes : List (List Char → Option Label), shapes.Perm [upTo?, single?, range?] →
      shapes.findSome? (· (trim text).toList) = Label.read? (trim text).toList) ∧
    (∀ times, Transform.timeRange (.text text) = .ok (.range times) ↔
      trim text = "" ∧ times = {} ∨ ∃ l, Writes (trim text).toList l ∧ Means l times) ∧
    ((∃ x, Transform.timeRange (.text text) = .ok x) ↔
      trim text = "" ∨ ∃ l, Writes (trim text).toList l ∧ ∀ c ∈ l.clocks, c.InRange) ∧
    ∀ fault, Transform.timeRange (.text text) = .error fault →
      fault = .ofMapping (.unparseableTime (trim text)) := by
  have hread := timeRange_text text
  refine ⟨fun l l' hl hl' => ?_, fun shapes hshapes => findSome?_shapes hshapes _, fun times => ?_,
    ?_, fun fault hfault => ?_⟩
  · exact Option.some.inj ((read?_of_writes hl).symm.trans (read?_of_writes hl'))
  · rw [hread, ← parse_eq_some]
    cases parse text with
    | some found => simp
    | none => simp
  · have hsome : (∃ x, Transform.timeRange (.text text) = .ok x) ↔
        ∃ times, parse text = some times := by
      rw [hread]
      cases parse text with
      | some found => simp
      | none => simp
    simp only [hsome, parse_eq_some, ← exists_means]
    constructor
    · rintro ⟨times, ⟨hblank, -⟩ | ⟨l, hl, hmeans⟩⟩
      · exact .inl hblank
      · exact .inr ⟨l, hl, times, hmeans⟩
    · rintro (hblank | ⟨l, hl, times, hmeans⟩)
      · exact ⟨{}, .inl ⟨hblank, rfl⟩⟩
      · exact ⟨times, .inr ⟨l, hl, hmeans⟩⟩
  · rw [hread] at hfault
    cases hparse : parse text with
    | some found =>
      rw [hparse] at hfault
      cases hfault
    | none =>
      rw [hparse] at hfault
      cases hfault
      rfl

/-- Digits of another script, blanks around the dash and a point left out. -/
theorem timeRange_language_arabic :
    ∃ l, Writes "\u0661\u0661:00 \u2013 12:30 P. m".toList l ∧ Means l
      { start := some ⟨11, 0, by decide, by decide⟩
        finish := some ⟨12, 30, by decide, by decide⟩ } := by
  obtain ⟨-, -, htimes, -, -⟩ := timeRange_language "\t\u0661\u0661:00 \u2013 12:30 P. m "
  have htrim : trim "\t\u0661\u0661:00 \u2013 12:30 P. m " =
      "\u0661\u0661:00 \u2013 12:30 P. m" := by decide
  have hparse : parse "\t\u0661\u0661:00 \u2013 12:30 P. m " = some
      { start := some ⟨11, 0, by decide, by decide⟩
        finish := some ⟨12, 30, by decide, by decide⟩ } := by decide
  rw [htrim] at htimes
  rcases (htimes _).mp (by rw [timeRange_text, hparse]) with ⟨hblank, -⟩ | hlabel
  · exact absurd hblank (by decide)
  · exact hlabel

end Labels

end TimeLabel
end SiteVisit.Calendar
