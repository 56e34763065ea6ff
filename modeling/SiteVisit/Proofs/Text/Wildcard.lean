import Mathlib.Data.List.Infix
import SiteVisit.Proofs.Text.Blank
import SiteVisit.Text.Wildcard

namespace SiteVisit.Text

inductive Covers : List Char → List Char → Prop
  | nil : Covers [] []
  | many {ps rest : List Char} (passed : List Char) :
    Covers ps rest → Covers ('%' :: ps) (passed ++ rest)
  | one {ps rest : List Char} (c : Char) : Covers ps rest → Covers ('_' :: ps) (c :: rest)
  | same {p c : Char} {ps rest : List Char} : p ≠ '%' → p ≠ '_' → c.toLower = p.toLower →
    Covers ps rest → Covers (p :: ps) (c :: rest)

section Cover

variable {p : Char} {ps qs text : List Char}

theorem covers_nil : Covers [] text ↔ text = [] := by
  constructor
  · rintro ⟨⟩
    rfl
  · rintro rfl
    exact .nil

theorem covers_many : Covers ('%' :: ps) text ↔ ∃ rest, rest <:+ text ∧ Covers ps rest := by
  constructor
  · rintro (_ | ⟨passed, h⟩ | _ | ⟨h, -⟩)
    · exact ⟨_, List.suffix_append _ _, h⟩
    · exact absurd rfl h
  · rintro ⟨rest, ⟨passed, rfl⟩, h⟩
    exact .many passed h

def standsFor (p c : Char) : Bool := p == '_' || c.toLower == p.toLower

theorem covers_cons (hp : p ≠ '%') :
    Covers (p :: ps) text ↔ ∃ c rest, text = c :: rest ∧ standsFor p c = true ∧ Covers ps rest := by
  constructor
  · rintro (_ | _ | ⟨c, h⟩ | ⟨-, -, hsame, h⟩)
    · exact absurd rfl hp
    · exact ⟨c, _, rfl, rfl, h⟩
    · exact ⟨_, _, rfl, by simp [standsFor, hsame], h⟩
  · rintro ⟨c, rest, rfl, hstands, h⟩
    by_cases hone : p = '_'
    · subst hone
      exact .one c h
    · simp only [standsFor, Bool.or_eq_true, beq_iff_eq, hone, false_or] at hstands
      exact .same hp hone hstands h

theorem covers_append :
    Covers (ps ++ qs) text ↔ ∃ front back, text = front ++ back ∧ Covers ps front ∧ Covers qs back := by
  induction ps generalizing text with
  | nil => simp [covers_nil]
  | cons p ps ih =>
    by_cases hp : p = '%'
    · subst hp
      simp only [List.cons_append, covers_many, ih]
      constructor
      · rintro ⟨_, ⟨passed, rfl⟩, front, back, rfl, hfront, hback⟩
        exact ⟨passed ++ front, back, (List.append_assoc ..).symm,
          ⟨front, List.suffix_append _ _, hfront⟩, hback⟩
      · rintro ⟨_, back, rfl, ⟨front, ⟨passed, rfl⟩, hfront⟩, hback⟩
        exact ⟨front ++ back, ⟨passed, (List.append_assoc ..).symm⟩, front, back, rfl, hfront, hback⟩
    · simp only [List.cons_append, covers_cons hp, ih]
      constructor
      · rintro ⟨c, _, rfl, hstands, front, back, rfl, hfront, hback⟩
        exact ⟨c :: front, back, rfl, ⟨c, front, rfl, hstands, hfront⟩, hback⟩
      · rintro ⟨_, back, rfl, ⟨c, front, rfl, hstands, hfront⟩, hback⟩
        exact ⟨c, front ++ back, rfl, hstands, front, back, rfl, hfront, hback⟩

theorem covers_between : Covers ('%' :: (ps ++ ['%'])) text ↔
    ∃ part, part <:+: text ∧ Covers ps part := by
  rw [covers_many]
  constructor
  · rintro ⟨_, ⟨passed, rfl⟩, h⟩
    obtain ⟨part, back, rfl, h, -⟩ := covers_append.mp h
    exact ⟨part, ⟨passed, back, List.append_assoc ..⟩, h⟩
  · rintro ⟨part, ⟨front, back, rfl⟩, h⟩
    refine ⟨part ++ back, ⟨front, (List.append_assoc ..).symm⟩,
      covers_append.mpr ⟨part, back, rfl, h, ?_⟩⟩
    exact covers_many.mpr ⟨[], List.nil_suffix, .nil⟩

theorem covers_plain (hplain : ∀ p ∈ ps, p ≠ '%' ∧ p ≠ '_') :
    Covers ps text ↔ text.map Char.toLower = ps.map Char.toLower := by
  induction ps generalizing text with
  | nil => simp [covers_nil]
  | cons p ps ih =>
    obtain ⟨⟨hmany, hone⟩, hplain⟩ := List.forall_mem_cons.mp hplain
    rw [covers_cons hmany]
    cases text with
    | nil => simp
    | cons c rest => simp [standsFor, hone, ih hplain]

theorem infix_map_iff {α β : Type} {f : α → β} {as bs : List α} :
    as.map f <:+: bs.map f ↔ ∃ part, part <:+: bs ∧ part.map f = as.map f := by
  constructor
  · rintro ⟨front, back, h⟩
    obtain ⟨bs₁, bs₂, rfl, h, -⟩ := List.map_eq_append_iff.mp h.symm
    obtain ⟨bs₀, part, rfl, -, hpart⟩ := List.map_eq_append_iff.mp h
    exact ⟨part, ⟨bs₀, bs₂, rfl⟩, hpart⟩
  · rintro ⟨part, hpart, h⟩
    exact h ▸ hpart.map f

end Cover

section Front

variable {wanted : Char → Bool} {ps text : List Char} {rests : List (List Char)}

theorem mem_suffixes {rest : List Char} : rest ∈ suffixes text ↔ rest <:+ text := by
  induction text with
  | nil => simp [suffixes]
  | cons c cs ih => rw [suffixes, List.mem_cons, ih, List.suffix_cons_iff]

def IsNested (rests : List (List Char)) : Prop := rests.Pairwise fun a b => b <:+ a

theorem isNested_suffixes (text : List Char) : IsNested (suffixes text) := by
  induction text with
  | nil => exact List.pairwise_singleton _ _
  | cons c cs ih =>
    exact List.pairwise_cons.mpr
      ⟨fun rest h => (mem_suffixes.mp h).trans (List.suffix_cons c cs), ih⟩

theorem mem_afterFirst {rest : List Char} :
    rest ∈ afterFirst wanted rests ↔ ∃ c, wanted c = true ∧ c :: rest ∈ rests := by
  rw [afterFirst, List.mem_filterMap]
  constructor
  · rintro ⟨_ | ⟨c, cs⟩, hmem, h⟩
    · cases h
    · dsimp only at h
      split at h <;> cases h
      exact ⟨c, ‹_›, hmem⟩
  · rintro ⟨c, hc, hmem⟩
    exact ⟨c :: rest, hmem, if_pos hc⟩

theorem IsNested.afterFirst (h : IsNested rests) : IsNested (afterFirst wanted rests) := by
  refine List.Pairwise.filterMap _ ?_ h
  intro a b hsuffix a' ha b' hb
  cases a with
  | nil => cases ha
  | cons c cs =>
    cases b with
    | nil => cases hb
    | cons d ds =>
      dsimp only at ha hb
      split at ha <;> cases ha
      split at hb <;> cases hb
      rcases List.suffix_cons_iff.mp hsuffix with heq | h
      · cases heq
        exact List.suffix_refl _
      · exact (List.suffix_cons _ _).trans h

/-- A percent sign only has to be tried on the longest choice, of which the others are suffixes. -/
theorem exists_suffix_head {goal : List Char → Prop} (h : IsNested rests) :
    (∃ rest ∈ rests.head?.elim [] suffixes, goal rest) ↔
      ∃ text ∈ rests, ∃ rest, rest <:+ text ∧ goal rest := by
  cases rests with
  | nil => simp
  | cons longest others =>
    obtain ⟨hlongest, -⟩ := List.pairwise_cons.mp h
    simp only [List.head?_cons, Option.elim_some, mem_suffixes, List.exists_mem_cons_iff]
    constructor
    · exact .inl
    · rintro (h | ⟨text, htext, rest, hrest, h⟩)
      · exact h
      · exact ⟨rest, hrest.trans (hlongest text htext), h⟩

theorem nil_mem_matchFront (h : IsNested rests) :
    [] ∈ matchFront ps rests ↔ ∃ text ∈ rests, Covers ps text := by
  -- The choices stay suffixes of one text, of which a percent sign keeps the longest only.
  induction ps generalizing rests with
  | nil => simp [matchFront, covers_nil]
  | cons p ps ih =>
    rw [matchFront]
    by_cases hmany : p = '%'
    · subst hmany
      have hnested : IsNested (rests.head?.elim [] suffixes) := by
        cases rests with
        | nil => exact .nil
        | cons longest others => exact isNested_suffixes longest
      rw [if_pos (beq_self_eq_true _), ih hnested, exists_suffix_head h]
      simp only [covers_many]
    · -- An underscore and a character of its own both take one character away.
      have hone : ∀ wanted : Char → Bool, (∀ c, wanted c = standsFor p c) →
          ([] ∈ matchFront ps (afterFirst wanted rests) ↔ ∃ text ∈ rests, Covers (p :: ps) text) := by
        intro wanted hwanted
        rw [ih h.afterFirst]
        constructor
        · rintro ⟨rest, hrest, hcovers⟩
          obtain ⟨c, hc, hmem⟩ := mem_afterFirst.mp hrest
          exact ⟨c :: rest, hmem, (covers_cons hmany).mpr ⟨c, rest, rfl, hwanted c ▸ hc, hcovers⟩⟩
        · rintro ⟨text, hmem, hcovers⟩
          obtain ⟨c, rest, rfl, hc, hcovers⟩ := (covers_cons hmany).mp hcovers
          exact ⟨rest, mem_afterFirst.mpr ⟨c, (hwanted c).trans hc, hmem⟩, hcovers⟩
      rw [if_neg (by simpa using hmany)]
      by_cases hp : p = '_'
      · rw [if_pos (by simpa using hp)]
        exact hone _ fun c => by simp [standsFor, hp]
      · rw [if_neg (by simpa using hp)]
        exact hone _ fun c => by simp [standsFor, hp]

end Front

theorem isLike_iff {pattern text : String} :
    isLike pattern text = true ↔ Covers (upToNull pattern) (upToNull text) := by
  rw [isLike, List.contains_iff_mem, nil_mem_matchFront (List.pairwise_singleton _ _)]
  simp

theorem upToNull_of_notMem {s : String} (h : '\x00' ∉ s.toList) : upToNull s = s.toList := by
  rw [upToNull, List.takeWhile_eq_self_iff]
  rintro c hc
  exact bne_iff_ne.mpr fun heq => h (heq ▸ hc)

theorem infix_trimStart {part text : List Char} (hpart : trimStart part = part)
    (h : part <:+: text) : part <:+: trimStart text := by
  induction text with
  | nil => exact h
  | cons c cs ih =>
    by_cases hc : isBlank c = true
    · rw [trimStart, List.dropWhile_cons_of_pos hc]
      rcases List.infix_cons_iff.mp h with hfront | h
      · cases part with
        | nil => exact List.nil_infix
        | cons d ds =>
          obtain ⟨rfl, -⟩ := List.cons_prefix_cons.mp hfront
          rw [trimStart, List.dropWhile_eq_self_iff] at hpart
          exact absurd hc (hpart (Nat.succ_pos _))
      · exact ih h
    · rw [trimStart, List.dropWhile_cons_of_neg hc]
      exact h

theorem infix_trimChars {part text : List Char} (h : trimChars part <:+: text) :
    trimChars part <:+: trimChars text := by
  have hstart : trimStart (trimChars part) = trimChars part :=
    trimStart_of_prefix (List.rdropWhile_prefix _ _) (List.dropWhile_idempotent _ _)
  have hend : trimStart (trimChars part).reverse = (trimChars part).reverse := by
    rw [trimChars, List.reverse_reverse]
    exact List.dropWhile_idempotent _ _
  have hreverse := List.reverse_infix.mpr (infix_trimStart hstart h)
  exact List.reverse_infix.mp (by
    rw [trimChars.eq_1 text, List.reverse_reverse]
    exact infix_trimStart hend hreverse)

end SiteVisit.Text
