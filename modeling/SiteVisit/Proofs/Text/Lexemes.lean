import Mathlib.Data.List.SplitBy
import SiteVisit.Proofs.Outcome
import SiteVisit.Proofs.Text.Decimal

namespace SiteVisit.Text

inductive Lexeme
  | word
  | number
  | mark (c : Char)
  deriving DecidableEq

namespace Lexeme

def ofChar (c : Char) : Lexeme :=
  if isDigit c then .number else if c.isAlpha then .word else .mark c

structure Is (k : Lexeme) (cs : List Char) : Prop where
  nonempty : cs ≠ []
  ofChar_eq : ∀ c ∈ cs, ofChar c = k
  single : ∀ m, k = .mark m → cs = [m]

def apart : Lexeme → Lexeme → Bool
  | .word, .word => false
  | .number, .number => false
  | _, _ => true

def Apart (ks : List Lexeme) : Prop := ks.IsChain fun k l => k.apart l = true

instance (ks : List Lexeme) : Decidable (Apart ks) :=
  inferInstanceAs (Decidable (ks.IsChain fun k l => k.apart l = true))

section Is

variable {k k' : Lexeme} {cs : List Char}

theorem ofChar_eq_number_iff {c : Char} : ofChar c = .number ↔ isDigit c = true := by
  rw [ofChar]
  split_ifs with hdigit halpha <;> simp [hdigit]

theorem Is.number (hne : cs ≠ []) (h : ∀ c ∈ cs, isDigit c = true) : Is .number cs :=
  ⟨hne, fun c hc => ofChar_eq_number_iff.mpr (h c hc), fun _ hm => by cases hm⟩

theorem is_toDigits (n : Nat) : Is .number (Nat.toDigits 10 n) := by
  refine .number Nat.toDigits_ne_nil fun c hc => ?_
  obtain ⟨d, hd, rfl⟩ := exists_digitChar_of_mem_toDigits hc
  exact (digitChar_plain hd).1

theorem Is.mark {c : Char} (h : ofChar c = .mark c) : Is (.mark c) [c] :=
  ⟨List.cons_ne_nil c [], by simpa using h, fun m hm => by cases hm; rfl⟩

theorem Is.unique (h : Is k cs) (h' : Is k' cs) : k = k' := by
  obtain ⟨c, rest, rfl⟩ := List.exists_cons_of_ne_nil h.nonempty
  exact (h.ofChar_eq c List.mem_cons_self).symm.trans (h'.ofChar_eq c List.mem_cons_self)

end Is

def joined (a b : Char) : Bool := !(ofChar a).apart (ofChar b)

theorem Is.isChain {k : Lexeme} {cs : List Char} (h : Is k cs) :
    cs.IsChain fun a b => joined a b = true := by
  cases k with
  | mark m => rw [h.single m rfl]; exact .singleton m
  | word | number =>
    refine List.Pairwise.isChain (List.pairwise_of_forall_mem_list fun a ha b hb => ?_)
    rw [joined, h.ofChar_eq a ha, h.ofChar_eq b hb]
    rfl

section Pieces

variable {ks ks' : List Lexeme} {ps ps' : List (List Char)}

theorem splitBy_flatten (h : List.Forall₂ Is ks ps) (hks : Apart ks) :
    ps.flatten.splitBy joined = ps := by
  have hpiece : ∀ p ∈ ps, ∃ k, Is k p := fun p hp =>
    let ⟨k, _, hk⟩ := exists_of_forall₂_right h hp
    ⟨k, hk⟩
  apply List.splitBy_flatten
  · intro hnil
    obtain ⟨k, hk⟩ := hpiece [] hnil
    exact hk.nonempty rfl
  · intro p hp
    obtain ⟨k, hk⟩ := hpiece p hp
    exact hk.isChain
  · induction h with
    | nil => exact .nil
    | @cons k p ks ps hp hps ih =>
      cases hps with
      | nil => exact .singleton p
      | @cons l q ks ps hq hps =>
        obtain ⟨hapart, hrest⟩ := List.isChain_cons_cons.mp hks
        refine List.isChain_cons_cons.mpr ⟨⟨hp.nonempty, hq.nonempty, ?_⟩,
          ih hrest fun r hr => hpiece r (List.mem_cons_of_mem p hr)⟩
        rw [joined, hp.ofChar_eq _ (List.getLast_mem _), hq.ofChar_eq _ (List.head_mem _), hapart]
        rfl

/-- Texts that are put together of pieces that stay apart are only equal if the pieces are. -/
theorem pieces_unique (h : List.Forall₂ Is ks ps) (hks : Apart ks) (h' : List.Forall₂ Is ks' ps')
    (hks' : Apart ks') (heq : ps.flatten = ps'.flatten) : ks = ks' ∧ ps = ps' := by
  obtain rfl : ps = ps' := by
    rw [← splitBy_flatten h hks, heq, splitBy_flatten h' hks']
  exact ⟨List.left_unique_forall₂' (fun _ _ _ ha hb => ha.unique hb) h h', rfl⟩

end Pieces

end Lexeme
end SiteVisit.Text
