import Mathlib.Tactic.Ring
import SiteVisit.Mapping.Key
import SiteVisit.Proofs.Mapping.Groups

namespace SiteVisit

namespace Decimal.Binary64

theorem scaled_den_pos {num den : Nat} (hden : 0 < den) (power : Int) :
    0 < (scaled num den power).2 := by
  cases power with
  | ofNat p => exact Nat.mul_pos hden (Nat.pow_pos (by decide))
  | negSucc p => exact hden

theorem ratio?_den_pos {x : Binary64} {r : Int × Nat} (h : x.ratio? = some r) : 0 < r.2 := by
  cases x with
  | nan => cases h
  | infinite => cases h
  | finite negative m power =>
    obtain rfl := Option.some.inj h
    exact scaled_den_pos Nat.one_pos (-power)

end Decimal.Binary64

namespace Datum

variable {u v w : Datum}

theorem ratio?_den_pos {r : Int × Nat} (h : v.ratio? = some r) : 0 < r.2 := by
  cases v with
  | bool =>
    obtain rfl := Option.some.inj h
    exact Nat.one_pos
  | int =>
    obtain rfl := Option.some.inj h
    exact Nat.one_pos
  | float => exact Decimal.Binary64.ratio?_den_pos h
  | _ => cases h

theorem eq_of_sameKey (hu : u.ratio? = none) (hv : v.ratio? = none) (h : u.sameKey v = true) :
    u = v ∧ u.sameKey u = true := by
  simp only [sameKey.eq_def u v, hu, hv] at h
  split at h
  · exact ⟨rfl, rfl⟩
  · obtain rfl := beq_iff_eq.mp h
    exact ⟨rfl, by simpa only [sameKey.eq_def, hu] using h⟩
  · obtain ⟨heq, hnan⟩ := Bool.and_eq_true_iff.mp h
    obtain rfl := beq_iff_eq.mp heq
    exact ⟨rfl, by simpa only [sameKey.eq_def, hu] using h⟩
  · obtain rfl := beq_iff_eq.mp h
    exact ⟨rfl, by simpa only [sameKey.eq_def, hu] using h⟩
  · obtain rfl := beq_iff_eq.mp h
    exact ⟨rfl, by simpa only [sameKey.eq_def, hu] using h⟩
  · obtain ⟨htime, hsecond⟩ := Bool.and_eq_true_iff.mp h
    obtain rfl := beq_iff_eq.mp htime
    obtain rfl := beq_iff_eq.mp hsecond
    exact ⟨rfl, by simpa only [sameKey.eq_def, hu] using h⟩
  · cases h

theorem sameKey_iff : u.sameKey v = true ↔
    (∃ r s, u.ratio? = some r ∧ v.ratio? = some s ∧ r.1 * s.2 = s.1 * r.2) ∨
      u.ratio? = none ∧ u = v ∧ u.sameKey u = true := by
  constructor
  · intro h
    cases hu : u.ratio? with
    | none =>
      cases hv : v.ratio? with
      | none => exact .inr ⟨rfl, eq_of_sameKey hu hv h⟩
      | some s => simp [sameKey, hu, hv] at h
    | some r =>
      cases hv : v.ratio? with
      | none => simp [sameKey, hu, hv] at h
      | some s => exact .inl ⟨r, s, rfl, rfl, by simpa [sameKey, hu, hv] using h⟩
  · rintro (⟨r, s, hu, hv, h⟩ | ⟨-, rfl, h⟩)
    · simpa [sameKey, hu, hv] using h
    · exact h

theorem sameKey_symm (h : u.sameKey v = true) : v.sameKey u = true := by
  rw [sameKey_iff] at h ⊢
  rcases h with ⟨r, s, hu, hv, h⟩ | ⟨hu, rfl, h⟩
  · exact .inl ⟨s, r, hv, hu, h.symm⟩
  · exact .inr ⟨hu, rfl, h⟩

theorem sameKey_trans (h : u.sameKey v = true) (h' : v.sameKey w = true) : u.sameKey w = true := by
  rw [sameKey_iff] at h h' ⊢
  rcases h with ⟨r, s, hu, hv, h⟩ | ⟨hu, rfl, h⟩
  · rcases h' with ⟨s', t, hv', hw, h'⟩ | ⟨hv', -, -⟩
    · obtain rfl := Option.some.inj (hv.symm.trans hv')
      have hpos : (s.2 : Int) ≠ 0 := Int.natCast_ne_zero.mpr (ratio?_den_pos hv).ne'
      refine .inl ⟨r, t, hu, hw, Int.eq_of_mul_eq_mul_left hpos ?_⟩
      calc
        (s.2 : Int) * (r.1 * t.2) = r.1 * s.2 * t.2 := by ring
        _ = s.1 * t.2 * r.2 := by rw [h]; ring
        _ = s.2 * (t.1 * r.2) := by rw [h']; ring
    · rw [hv] at hv'
      cases hv'
  · exact h'

end Datum

instance : PartialEquivBEq Key where
  symm := Datum.sameKey_symm
  trans := Datum.sameKey_trans

section Groups

variable {α κ : Type} [BEq κ]

/-- What the groups of some items are: one for each key, in the order in which the keys are first
seen, with all items of the key in their order. An item whose key is not equal to itself is alone in
its group. All items are there once, and taken group by group they have the same groups again. -/
structure AreGroups (key : α → κ) (items : List α) (groups : List (κ × List α)) : Prop where
  distinct : groups.Pairwise fun g g' => (g.1 == g'.1) = false
  keys : groups.map (·.1) = (items.map key).eraseDups
  firsts : (groups.filterMap (·.2.head?)).Sublist items
  members : ∀ g ∈ groups, (g.1 == g.1) = true → g.2 = items.filter (key · == g.1)
  alone : ∀ g ∈ groups, (g.1 == g.1) = false → ∃ a, g = (key a, [a])
  nonempty : ∀ g ∈ groups, g.2 ≠ []
  perm : (groups.flatMap (·.2)).Perm items
  again : groupBy key (groups.flatMap (·.2)) = groups

theorem groupBy_areGroups [PartialEquivBEq κ] (key : α → κ) (items : List α) :
    AreGroups key items (groupBy key items) where
  distinct := pairwise_groupBy items
  keys := keys_groupBy items
  firsts := firsts_groupBy items
  members _ := members_of_mem_groupBy
  alone _ := alone_of_mem_groupBy
  nonempty g hg := by
    obtain ⟨a, rest, rfl, -⟩ := exists_of_mem_groupBy hg
    exact List.cons_ne_nil a rest
  perm := perm_groupBy items
  again := groupBy_flatMap_groupBy items

/-- Items whose keys are equal numbers of different kinds, a text, and two values that are no numbers.
Those are different objects: one and the same would be equal to itself. -/
def mixedItems : List (Key × String) :=
  [(⟨.int 1⟩, "a"), (⟨.float .nan⟩, "b"), (⟨.bool true⟩, "c"), (⟨.text "1"⟩, "d"),
    (⟨.float .nan⟩, "e"), (⟨.float (.ofDecimal false 1 0)⟩, "f")]

theorem groupBy_areGroups_mixedItems :
    ((groupBy (·.1) mixedItems).map fun g => g.2.map (·.2)) =
      [["a", "c", "f"], ["b"], ["d"], ["e"]] ∧
    AreGroups (·.1) mixedItems (groupBy (·.1) mixedItems) :=
  ⟨by decide, groupBy_areGroups _ _⟩

end Groups
end SiteVisit
