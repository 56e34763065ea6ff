import SiteVisit.Proofs.Calendar.Walls

/-!
The clocks of a zone for all time, as a table of the transitions at which they change. Some readings
of the clocks are left out by a transition and some come twice. A reading that there is belongs to
the earliest instant at which it is shown, and the instants of the readings follow each other as the
readings do.
-/

namespace SiteVisit.Calendar

structure Transition where
  instant : Int
  ahead : Int
  deriving DecidableEq, Repr

namespace Transition

/-- How far the clocks are ahead after the last of the transitions whose bound a number has reached.
The bound of a transition depends on how far they were ahead before it. -/
def scan (bound : Int → Transition → Int) (before : Int) : List Transition → Int → Int
  | [], _ => before
  | c :: rest, n => if n < bound before c then before else scan bound c.ahead rest n

def aheadAt : Int → List Transition → Int → Int := scan fun _ c => c.instant

/-- How far the clocks are ahead when they show a reading. What a transition leaves out or repeats
belongs to the time before it. -/
def aheadOn : Int → List Transition → Int → Int :=
  scan fun before c => c.instant + max before c.ahead

/-- The readings that a transition leaves out or repeats are past before those of the next one
come. -/
inductive Apart : Int → List Transition → Prop
  | nil {before : Int} : Apart before []
  | one {before : Int} {c : Transition} : Apart before [c]
  | cons {before : Int} {c d : Transition} {rest : List Transition} :
    c.instant + max before c.ahead ≤ d.instant + min c.ahead d.ahead →
    Apart c.ahead (d :: rest) → Apart before (c :: d :: rest)

variable {before t t' n n' : Int} {c : Transition} {rest transitions : List Transition}

@[simp] theorem aheadAt_nil : aheadAt before [] t = before := rfl

@[simp] theorem aheadOn_nil : aheadOn before [] n = before := rfl

theorem aheadAt_cons : aheadAt before (c :: rest) t =
    if t < c.instant then before else aheadAt c.ahead rest t := rfl

theorem aheadOn_cons : aheadOn before (c :: rest) n =
    if n < c.instant + max before c.ahead then before else aheadOn c.ahead rest n := rfl

theorem Apart.tail (h : Apart before (c :: rest)) : Apart c.ahead rest := by
  cases h with
  | one => exact .nil
  | cons _ h => exact h

theorem Apart.le_reading (h : Apart before (c :: rest)) (ht : c.instant ≤ t) :
    c.instant + c.ahead ≤ t + aheadAt c.ahead rest t := by
  induction rest generalizing before c with
  | nil => exact Int.add_le_add_right ht _
  | cons d rest ih =>
    obtain _ | _ | ⟨hapart, htail⟩ := h
    rw [aheadAt_cons]
    split
    · exact Int.add_le_add_right ht _
    · next hnext =>
      have hlater := ih htail (Int.not_lt.mp hnext)
      omega

theorem Apart.le_instant (h : Apart before (c :: rest)) (hn : c.instant + max before c.ahead ≤ n) :
    c.instant ≤ n - aheadOn c.ahead rest n := by
  induction rest generalizing before c with
  | nil =>
    rw [aheadOn_nil]
    omega
  | cons d rest ih =>
    obtain _ | _ | ⟨hapart, htail⟩ := h
    rw [aheadOn_cons]
    split
    · omega
    · next hnext =>
      have hlater := ih htail (Int.not_lt.mp hnext)
      omega

theorem Apart.lt_of_shown (h : Apart before (c :: rest))
    (hshown : t + aheadAt before (c :: rest) t = n) (hn : n < c.instant + max before c.ahead) :
    n < c.instant + before := by
  rw [aheadAt_cons] at hshown
  split at hshown
  · omega
  · next hafter =>
    have hreading := h.le_reading (Int.not_lt.mp hafter)
    omega

theorem Apart.earliest (h : Apart before transitions)
    (hshown : t + aheadAt before transitions t = n) :
    n - aheadOn before transitions n +
        aheadAt before transitions (n - aheadOn before transitions n) = n ∧
      n - aheadOn before transitions n ≤ t := by
  induction transitions generalizing before with
  | nil =>
    simp only [aheadAt_nil, aheadOn_nil] at *
    omega
  | cons c rest ih =>
    by_cases hpast : n < c.instant + max before c.ahead
    · have hearly := h.lt_of_shown hshown hpast
      rw [aheadAt_cons] at hshown
      rw [aheadOn_cons, if_pos hpast, aheadAt_cons, if_pos (by omega)]
      refine ⟨by omega, ?_⟩
      split at hshown <;> omega
    · have hlate := h.le_instant (Int.not_lt.mp hpast)
      have hafter : ¬ t < c.instant := by
        intro hbefore
        rw [aheadAt_cons, if_pos hbefore] at hshown
        omega
      rw [aheadAt_cons, if_neg hafter] at hshown
      rw [aheadOn_cons, if_neg hpast, aheadAt_cons, if_neg (Int.not_lt.mpr hlate)]
      exact ih h.tail hshown

theorem Apart.instant_lt (h : Apart before transitions)
    (hshown : t + aheadAt before transitions t = n)
    (hshown' : t' + aheadAt before transitions t' = n') (hlt : n < n') :
    n - aheadOn before transitions n < n' - aheadOn before transitions n' := by
  induction transitions generalizing before with
  | nil =>
    simp only [aheadOn_nil]
    omega
  | cons c rest ih =>
    have hafter {t n : Int} (hshown : t + aheadAt before (c :: rest) t = n)
        (hpast : ¬ n < c.instant + max before c.ahead) : t + aheadAt c.ahead rest t = n := by
      rw [aheadAt_cons] at hshown
      split at hshown
      · omega
      · exact hshown
    by_cases hpast' : n' < c.instant + max before c.ahead
    · rw [aheadOn_cons, aheadOn_cons, if_pos hpast', if_pos (hlt.trans hpast')]
      omega
    · by_cases hpast : n < c.instant + max before c.ahead
      · have hearly := h.lt_of_shown hshown hpast
        have hlate := h.le_instant (Int.not_lt.mp hpast')
        rw [aheadOn_cons, aheadOn_cons, if_pos hpast, if_neg hpast']
        omega
      · rw [aheadOn_cons, aheadOn_cons, if_neg hpast, if_neg hpast']
        exact ih h.tail (hafter hshown hpast) (hafter hshown' hpast')

section Yearly

variable {bound : Int → Transition → Int} {ahead : Int} {first second : Nat → Int}
  {year count y : Nat}

def yearly (before ahead : Int) (first second : Nat → Int) (year count : Nat) : List Transition :=
  (List.range' year count).flatMap fun y => [⟨first y, ahead⟩, ⟨second y, before⟩]

theorem yearly_succ : yearly before ahead first second year (count + 1) =
    ⟨first year, ahead⟩ :: ⟨second year, before⟩ ::
      yearly before ahead first second (year + 1) count := rfl

theorem scan_yearly_eq_or (before ahead : Int) (bound : Int → Transition → Int)
    (first second : Nat → Int) (year count : Nat) (n : Int) :
    scan bound before (yearly before ahead first second year count) n = before ∨
      scan bound before (yearly before ahead first second year count) n = ahead := by
  induction count generalizing year with
  | zero => exact .inl rfl
  | succ count ih =>
    rw [yearly_succ, scan, scan]
    split
    · exact .inl rfl
    · split
      · exact .inr rfl
      · exact ih (year + 1)

/-- Only the transitions of its own year decide about a number that is past those of the earlier
years and not past those of the later ones. -/
theorem scan_yearly (hyear : year ≤ y) (hcount : y < year + count)
    (hpast : ∀ z, year ≤ z → z < y →
      bound before ⟨first z, ahead⟩ ≤ n ∧ bound ahead ⟨second z, before⟩ ≤ n)
    (hcoming : ∀ z, y < z → n < bound before ⟨first z, ahead⟩) :
    scan bound before (yearly before ahead first second year count) n =
      if n < bound before ⟨first y, ahead⟩ then before
      else if n < bound ahead ⟨second y, before⟩ then ahead else before := by
  induction count generalizing year with
  | zero => omega
  | succ count ih =>
    rw [yearly_succ, scan, scan]
    by_cases hnow : year = y
    · subst hnow
      have hlater : scan bound before (yearly before ahead first second (year + 1) count) n =
          before := by
        cases count with
        | zero => rfl
        | succ count => rw [yearly_succ, scan, if_pos (hcoming _ (Nat.lt_succ_self _))]
      rw [hlater]
    · obtain ⟨hfirst, hsecond⟩ := hpast year (Nat.le_refl year) (by omega)
      rw [if_neg (Int.not_lt.mpr hfirst), if_neg (Int.not_lt.mpr hsecond)]
      exact ih (by omega) (by omega) fun z hz => hpast z (by omega)

theorem apart_yearly
    (h : ∀ y, year ≤ y → first y + max before ahead ≤ second y + min before ahead ∧
      second y + max before ahead ≤ first (y + 1) + min before ahead) :
    Apart before (yearly before ahead first second year count) := by
  induction count generalizing year with
  | zero => exact .nil
  | succ count ih =>
    obtain ⟨hwithin, hnext⟩ := h year (Nat.le_refl year)
    have hlater : Apart before (yearly before ahead first second (year + 1) count) :=
      ih fun y hy => h y (Nat.le_of_succ_le hy)
    refine .cons (by rwa [min_comm] at hwithin) ?_
    cases count with
    | zero => exact .one
    | succ count => exact .cons (by rwa [max_comm] at hnext) hlater

end Yearly
end Transition

structure Rules where
  before : Int
  transitions : List Transition
  apart : Transition.Apart before transitions

namespace Rules

def aheadAt (r : Rules) (t : Int) : Int := Transition.aheadAt r.before r.transitions t

def aheadOn (r : Rules) (w : Wall) : Int := Transition.aheadOn r.before r.transitions w.micros

def wallAt? (r : Rules) (t : Int) : Option Wall := Wall.ofMicros? (t + r.aheadAt t)

end Rules
end SiteVisit.Calendar
