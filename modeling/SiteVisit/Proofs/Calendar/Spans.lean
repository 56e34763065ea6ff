import SiteVisit.Calendar.Span
import SiteVisit.Proofs.Calendar.DayLabels
import SiteVisit.Proofs.Calendar.Walls

namespace SiteVisit.Calendar

open Text (Lexeme)

/-- The earliest and the latest of some days, of which not all need be known. -/
structure IsSpan (dates : List (Option Date)) (first last : Date) : Prop where
  first_mem : some first ∈ dates
  last_mem : some last ∈ dates
  first_le : ∀ d, some d ∈ dates → first.ordinal ≤ d.ordinal
  le_last : ∀ d, some d ∈ dates → d.ordinal ≤ last.ordinal

namespace IsSpan

variable {dates dates' : List (Option Date)} {a b c d : Date}

theorem unique (h : IsSpan dates a b) (h' : IsSpan dates c d) : a = c ∧ b = d :=
  ⟨Date.ordinal_inj.mp (Nat.le_antisymm (h.first_le c h'.first_mem) (h'.first_le a h.first_mem)),
    Date.ordinal_inj.mp (Nat.le_antisymm (h'.le_last b h.last_mem) (h.le_last d h'.last_mem))⟩

theorem congr (h : IsSpan dates a b) (hsame : ∀ d, some d ∈ dates ↔ some d ∈ dates') :
    IsSpan dates' a b where
  first_mem := (hsame a).mp h.first_mem
  last_mem := (hsame b).mp h.last_mem
  first_le d hd := h.first_le d ((hsame d).mpr hd)
  le_last d hd := h.le_last d ((hsame d).mpr hd)

theorem singleton (d : Date) : IsSpan [some d] d d := by
  constructor <;> simp

end IsSpan

section Bounds

variable {dates : List (Option Date)} {known : List Date} {first last d : Date}

theorem IsSpan.widen (h : IsSpan (known.map some) first last) (d : Date) :
    ∃ a b, Calendar.widen (some (first, last)) d = some (a, b) ∧
      IsSpan ((known ++ [d]).map some) a b := by
  obtain ⟨hfirst, hlast, hle, hge⟩ := h
  simp only [List.mem_map, Option.some.injEq, exists_eq_right] at hfirst hlast hle hge
  refine ⟨_, _, rfl, ?_⟩
  constructor <;>
    simp only [List.mem_map, Option.some.injEq, exists_eq_right, List.mem_append,
      List.mem_singleton, Date.before, decide_eq_true_eq]
  · split
    · exact .inr rfl
    · exact .inl hfirst
  · split
    · exact .inr rfl
    · exact .inl hlast
  · rintro e (he | rfl)
    · have := hle e he
      split <;> omega
    · split <;> omega
  · rintro e (he | rfl)
    · have := hge e he
      split <;> omega
    · split <;> omega

theorem isSpan_foldl_widen (known : List Date) (hne : known ≠ []) :
    ∃ first last, known.foldl widen none = some (first, last) ∧
      IsSpan (known.map some) first last := by
  induction known using List.reverseRecOn with
  | nil => exact absurd rfl hne
  | append_singleton known d ih =>
    rw [List.foldl_append, List.foldl_cons, List.foldl_nil]
    by_cases hknown : known = []
    · subst hknown
      exact ⟨d, d, rfl, .singleton d⟩
    · obtain ⟨first, last, hfold, hspan⟩ := ih hknown
      rw [hfold]
      exact hspan.widen d

theorem bounds?_eq_none_iff : bounds? dates = none ↔ ∀ d, some d ∉ dates := by
  have hknown : dates.filterMap id = [] ↔ ∀ d, some d ∉ dates := by
    simp only [List.filterMap_eq_nil_iff, id, Option.eq_none_iff_forall_ne_some]
    exact ⟨fun h d hd => h _ hd d rfl, fun h o ho d hod => h d (hod ▸ ho)⟩
  rw [← hknown, bounds?]
  constructor
  · intro h
    by_contra hne
    obtain ⟨first, last, hfold, -⟩ := isSpan_foldl_widen _ hne
    rw [hfold] at h
    cases h
  · intro h
    rw [h]
    rfl

theorem bounds?_eq_some_iff : bounds? dates = some (first, last) ↔ IsSpan dates first last := by
  have hsame : ∀ d, some d ∈ (dates.filterMap id).map some ↔ some d ∈ dates := by simp
  constructor
  · intro h
    have hne : dates.filterMap id ≠ [] := by
      intro hnil
      rw [bounds?, hnil] at h
      cases h
    obtain ⟨a, b, hfold, hspan⟩ := isSpan_foldl_widen _ hne
    obtain ⟨rfl, rfl⟩ := Prod.mk.inj (Option.some.inj (h.symm.trans hfold))
    exact hspan.congr hsame
  · intro h
    have hne : dates.filterMap id ≠ [] :=
      List.ne_nil_of_mem (List.mem_filterMap.mpr ⟨_, h.first_mem, rfl⟩)
    obtain ⟨a, b, hfold, hspan⟩ := isSpan_foldl_widen _ hne
    obtain ⟨rfl, rfl⟩ := h.unique (hspan.congr hsame)
    exact hfold

end Bounds

section Shapes

inductive Shape
  | day
  | month
  | year
  | years

def shape (first last : Date) : Shape :=
  if first = last then .day
  else if first.year = last.year ∧ first.month = last.month then .month
  else if first.year = last.year then .year
  else .years

def dayLexemes : List Lexeme := [.word, .mark ' ', .number]

def yearLexemes : List Lexeme := [.mark ',', .mark ' ', .number]

def Shape.lexemes : Shape → List Lexeme
  | .day => dayLexemes ++ yearLexemes
  | .month => dayLexemes ++ ([.mark '-', .number] ++ yearLexemes)
  | .year => dayLexemes ++ ([.mark ' ', .mark '-', .mark ' '] ++ (dayLexemes ++ yearLexemes))
  | .years => dayLexemes ++ (yearLexemes ++
      ([.mark ' ', .mark '-', .mark ' '] ++ (dayLexemes ++ yearLexemes)))

def Date.dayPieces (d : Date) : List (List Char) :=
  [d.monthName.toList, [' '], Nat.toDigits 10 d.day]

def Date.yearPieces (d : Date) : List (List Char) := [[','], [' '], Nat.toDigits 10 d.year]

def Shape.pieces (first last : Date) : Shape → List (List Char)
  | .day => first.dayPieces ++ first.yearPieces
  | .month => first.dayPieces ++ ([['-'], Nat.toDigits 10 last.day] ++ first.yearPieces)
  | .year => first.dayPieces ++ ([[' '], ['-'], [' ']] ++ (last.dayPieces ++ first.yearPieces))
  | .years => first.dayPieces ++ (first.yearPieces ++
      ([[' '], ['-'], [' ']] ++ (last.dayPieces ++ last.yearPieces)))

variable {a b c d first last : Date}

theorem toList_spanLabel (first last : Date) :
    (spanLabel first last).toList = ((shape first last).pieces first last).flatten := by
  rw [spanLabel, shape]
  split_ifs <;>
    simp [Shape.pieces, Date.monthAndDay, Date.dayPieces, Date.yearPieces, Text.toList_decimal]

theorem Date.namesMonth (d : Date) : DateLabel.NamesMonth (d.month - 1) d.monthName.toList :=
  DateLabel.namesMonth_of_full rfl

theorem Date.monthName_inj : a.monthName = b.monthName ↔ a.month = b.month := by
  refine ⟨fun h => ?_, fun h => by rw [monthName, monthName, h]⟩
  have hmonth : a.month - 1 = b.month - 1 := a.namesMonth.unique (h ▸ b.namesMonth)
  have ha := a.month_range
  have hb := b.month_range
  omega

theorem Shape.forall₂_pieces (s : Shape) (first last : Date) :
    List.Forall₂ Lexeme.Is s.lexemes (s.pieces first last) := by
  have hspace : (Lexeme.mark ' ').Is [' '] := .mark (by decide)
  have hcomma : (Lexeme.mark ',').Is [','] := .mark (by decide)
  have hdash : (Lexeme.mark '-').Is ['-'] := .mark (by decide)
  have hday (d : Date) : List.Forall₂ Lexeme.Is dayLexemes d.dayPieces :=
    .cons d.namesMonth.is_word (.cons hspace (.cons (Lexeme.is_toDigits _) .nil))
  have hyear (d : Date) : List.Forall₂ Lexeme.Is yearLexemes d.yearPieces :=
    .cons hcomma (.cons hspace (.cons (Lexeme.is_toDigits _) .nil))
  have hto : List.Forall₂ Lexeme.Is [.mark ' ', .mark '-', .mark ' '] [[' '], ['-'], [' ']] :=
    .cons hspace (.cons hdash (.cons hspace .nil))
  cases s with
  | day => exact List.rel_append (hday first) (hyear first)
  | month =>
    exact List.rel_append (hday first) (List.rel_append
      (.cons hdash (.cons (Lexeme.is_toDigits _) .nil)) (hyear first))
  | year =>
    exact List.rel_append (hday first) (List.rel_append hto
      (List.rel_append (hday last) (hyear first)))
  | years =>
    exact List.rel_append (hday first) (List.rel_append (hyear first) (List.rel_append hto
      (List.rel_append (hday last) (hyear last))))

theorem Shape.apart (s : Shape) : Lexeme.Apart s.lexemes := by cases s <;> decide

theorem Shape.lexemes_inj {s t : Shape} (h : s.lexemes = t.lexemes) : s = t := by
  cases s <;> cases t <;> first | rfl | exact absurd h (by decide)

def Shape.Fits (first last : Date) : Shape → Prop
  | .day => first = last
  | .month => first.year = last.year ∧ first.month = last.month
  | .year => first.year = last.year
  | .years => True

theorem shape_fits (first last : Date) : (shape first last).Fits first last := by
  rw [shape]
  split_ifs with hday hmonth hyear
  · exact hday
  · exact hmonth
  · exact hyear
  · trivial

/-- What is not written of the last day it has in common with the first one. -/
theorem Shape.pieces_inj {s : Shape} (hab : s.Fits a b) (hcd : s.Fits c d)
    (h : s.pieces a b = s.pieces c d) : a = c ∧ b = d := by
  cases s <;> simp only [Shape.pieces, Date.dayPieces, Date.yearPieces, List.cons_append,
    List.nil_append, List.cons.injEq, String.toList_inj, Date.monthName_inj, Text.toDigits_inj,
    true_and, and_true] at h <;> dsimp only [Shape.Fits] at hab hcd
  case day =>
    obtain ⟨hmonth, hday, hyear⟩ := h
    obtain rfl : a = c := Date.ext hyear hmonth hday
    exact ⟨rfl, hab.symm.trans hcd⟩
  case month =>
    obtain ⟨hmonth, hday, hlast, hyear⟩ := h
    exact ⟨Date.ext hyear hmonth hday,
      Date.ext (hab.1.symm.trans (hyear.trans hcd.1)) (hab.2.symm.trans (hmonth.trans hcd.2)) hlast⟩
  case year =>
    obtain ⟨hmonth, hday, hmonth', hday', hyear⟩ := h
    exact ⟨Date.ext hyear hmonth hday, Date.ext (hab.symm.trans (hyear.trans hcd)) hmonth' hday'⟩
  case years =>
    obtain ⟨hmonth, hday, hyear, hmonth', hday', hyear'⟩ := h
    exact ⟨Date.ext hyear hmonth hday, Date.ext hyear' hmonth' hday'⟩

theorem spanLabel_inj : spanLabel a b = spanLabel c d ↔ a = c ∧ b = d := by
  refine ⟨fun h => ?_, fun ⟨hac, hbd⟩ => by rw [hac, hbd]⟩
  have hflat : ((shape a b).pieces a b).flatten = ((shape c d).pieces c d).flatten := by
    rw [← toList_spanLabel, h, toList_spanLabel]
  obtain ⟨hlexemes, hpieces⟩ := Lexeme.pieces_unique ((shape a b).forall₂_pieces a b)
    (shape a b).apart ((shape c d).forall₂_pieces c d) (shape c d).apart hflat
  have hshape := Shape.lexemes_inj hlexemes
  have hcd := shape_fits c d
  rw [← hshape] at hpieces hcd
  exact Shape.pieces_inj (shape_fits a b) hcd hpieces

theorem spanLabel_ne_empty (first last : Date) : spanLabel first last ≠ "" := by
  intro h
  have hflat := toList_spanLabel first last
  rw [h] at hflat
  obtain ⟨c, rest, hname⟩ := List.exists_cons_of_ne_nil first.namesMonth.is_word.nonempty
  cases hshape : shape first last <;>
    simp [hshape, Shape.pieces, Date.dayPieces, hname] at hflat

end Shapes

section Labels

variable {dates dates' : List (Option Date)}

theorem describeSpan_of_isSpan {first last : Date} (h : IsSpan dates first last) :
    describeSpan dates = spanLabel first last := by
  rw [describeSpan, bounds?_eq_some_iff.mpr h]

theorem describeSpan_eq_empty_iff : describeSpan dates = "" ↔ ∀ d, some d ∉ dates := by
  rw [describeSpan]
  cases hbounds : bounds? dates with
  | none => exact iff_of_true rfl (bounds?_eq_none_iff.mp hbounds)
  | some bounds =>
    obtain ⟨first, last⟩ := bounds
    refine iff_of_false (spanLabel_ne_empty first last) fun h => ?_
    exact h first (bounds?_eq_some_iff.mp hbounds).first_mem

theorem exists_isSpan {d : Date} (h : some d ∈ dates) : ∃ first last, IsSpan dates first last := by
  cases hbounds : bounds? dates with
  | none => exact absurd h (bounds?_eq_none_iff.mp hbounds d)
  | some bounds => exact ⟨_, _, bounds?_eq_some_iff.mp hbounds⟩

/-- Days have the same label exactly if none of them are known on either side, or their earliest
days agree and their latest ones do. So the label only depends on which days are known, and there is
none exactly if no day is. Spans that differ have different labels, in whichever shapes. -/
theorem describeSpan_tells (dates dates' : List (Option Date)) :
    (describeSpan dates = describeSpan dates' ↔
      (∀ d, some d ∉ dates) ∧ (∀ d, some d ∉ dates') ∨
        ∃ first last, IsSpan dates first last ∧ IsSpan dates' first last) ∧
    ((∀ d, some d ∈ dates ↔ some d ∈ dates') → describeSpan dates = describeSpan dates') ∧
    (describeSpan dates = "" ↔ ∀ d, some d ∉ dates) ∧
    ∀ a b c d, spanLabel a b = spanLabel c d ↔ a = c ∧ b = d := by
  have hiff : describeSpan dates = describeSpan dates' ↔
      (∀ d, some d ∉ dates) ∧ (∀ d, some d ∉ dates') ∨
        ∃ first last, IsSpan dates first last ∧ IsSpan dates' first last := by
    constructor
    · intro h
      by_cases hnone : ∀ d, some d ∉ dates
      · have hempty := describeSpan_eq_empty_iff.mpr hnone
        exact .inl ⟨hnone, describeSpan_eq_empty_iff.mp (h.symm.trans hempty)⟩
      · have hknown := mt describeSpan_eq_empty_iff.mp hnone
        have hknown' : ¬ ∀ d, some d ∉ dates' :=
          mt describeSpan_eq_empty_iff.mpr (h ▸ hknown)
        simp only [not_forall, not_not] at hnone hknown'
        obtain ⟨first, last, hspan⟩ := exists_isSpan hnone.choose_spec
        obtain ⟨first', last', hspan'⟩ := exists_isSpan hknown'.choose_spec
        rw [describeSpan_of_isSpan hspan, describeSpan_of_isSpan hspan', spanLabel_inj] at h
        obtain ⟨rfl, rfl⟩ := h
        exact .inr ⟨first, last, hspan, hspan'⟩
    · rintro (⟨hnone, hnone'⟩ | ⟨first, last, hspan, hspan'⟩)
      · rw [describeSpan_eq_empty_iff.mpr hnone, describeSpan_eq_empty_iff.mpr hnone']
      · rw [describeSpan_of_isSpan hspan, describeSpan_of_isSpan hspan']
  refine ⟨hiff, fun hsame => hiff.mpr ?_, describeSpan_eq_empty_iff, fun _ _ _ _ => spanLabel_inj⟩
  by_cases hnone : ∀ d, some d ∉ dates
  · exact .inl ⟨hnone, fun d hd => hnone d ((hsame d).mpr hd)⟩
  · simp only [not_forall, not_not] at hnone
    obtain ⟨first, last, hspan⟩ := exists_isSpan hnone.choose_spec
    exact .inr ⟨first, last, hspan, hspan.congr hsame⟩

theorem describeSpan_tells_newYear : ∃ eve day, Date.ofParts? 2025 12 31 = some eve ∧
    Date.ofParts? 2026 1 1 = some day ∧
    (∀ d, some d ∈ [some day, none, some eve, some eve] ↔ some d ∈ [some eve, some day]) ∧
    describeSpan [some day, none, some eve, some eve] = describeSpan [some eve, some day] := by
  obtain ⟨eve, heve⟩ : ∃ eve, Date.ofParts? 2025 12 31 = some eve := ⟨_, rfl⟩
  obtain ⟨day, hday⟩ : ∃ day, Date.ofParts? 2026 1 1 = some day := ⟨_, rfl⟩
  have hsame (d : Date) : some d ∈ [some day, none, some eve, some eve] ↔
      some d ∈ [some eve, some day] := by
    simp [or_comm]
  obtain ⟨-, hlabel, -⟩ := describeSpan_tells [some day, none, some eve, some eve]
    [some eve, some day]
  exact ⟨eve, day, heve, hday, hsame, hlabel hsame⟩

end Labels

end SiteVisit.Calendar
