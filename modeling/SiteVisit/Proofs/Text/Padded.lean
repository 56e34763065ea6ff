import Mathlib.Data.Nat.Digits.Defs
import Mathlib.Data.Nat.ModEq
import SiteVisit.Calendar.IsoText

namespace SiteVisit.Text

def places : Nat → Nat → List Char
  | 0, _ => []
  | width + 1, n => Nat.digitChar (n / 10 ^ width % 10) :: places width n

@[simp] theorem length_places (width n : Nat) : (places width n).length = width := by
  induction width with
  | zero => rfl
  | succ width ih => rw [places, List.length_cons, ih]

theorem places_succ (width n : Nat) :
    places (width + 1) n = places width (n / 10) ++ [Nat.digitChar (n % 10)] := by
  induction width with
  | zero => simp [places]
  | succ width ih =>
    have hdiv : n / 10 ^ (width + 1) = n / 10 / 10 ^ width := by
      rw [Nat.div_div_eq_div_mul, Nat.pow_succ']
    rw [places, ih, places, hdiv, List.cons_append]

theorem toList_padded {width n : Nat} (hwidth : 0 < width) (h : n < 10 ^ width) :
    (padded width n).toList = places width n := by
  rw [padded, String.toList_ofList]
  induction width generalizing n with
  | zero => omega
  | succ width ih =>
    by_cases hn : n < 10
    · have hzeros : places width (n / 10) = List.replicate width '0' := by
        rw [Nat.div_eq_of_lt hn]
        clear ih h hwidth
        induction width with
        | zero => rfl
        | succ width ih => simp [places, ih, List.replicate_succ, Nat.digitChar]
      rw [places_succ, hzeros, Nat.toDigits_of_lt_base hn, Nat.mod_eq_of_lt hn]
      rfl
    · have hdiv : n / 10 < 10 ^ width := by
        rw [Nat.pow_succ] at h
        omega
      have hwidth : 0 < width := by
        rcases Nat.eq_zero_or_pos width with rfl | hpos
        · omega
        · exact hpos
      rw [places_succ, ← ih hwidth hdiv, Nat.toDigits_of_base_le (by omega) (by omega),
        List.length_append, List.length_singleton, Nat.add_sub_add_right, List.append_assoc]

theorem digitChar_lt_iff {d e : Nat} (hd : d < 10) (he : e < 10) :
    Nat.digitChar d < Nat.digitChar e ↔ d < e := by
  have hall : ∀ d : Fin 10, ∀ e : Fin 10, Nat.digitChar d < Nat.digitChar e ↔ d.val < e.val := by
    decide
  exact hall ⟨d, hd⟩ ⟨e, he⟩

theorem digitChar_inj {d e : Nat} (hd : d < 10) (he : e < 10) :
    Nat.digitChar d = Nat.digitChar e ↔ d = e := by
  have hall : ∀ d : Fin 10, ∀ e : Fin 10, Nat.digitChar d = Nat.digitChar e ↔ d.val = e.val := by
    decide
  exact hall ⟨d, hd⟩ ⟨e, he⟩

theorem asciiDigit?_digitChar {d : Nat} (hd : d < 10) : asciiDigit? (Nat.digitChar d) = some d := by
  have hall : ∀ d : Fin 10, asciiDigit? (Nat.digitChar d) = some d.val := by decide
  exact hall ⟨d, hd⟩

theorem add_mul_lt_iff {base q r q' r' : Nat} (hr : r < base) (hr' : r' < base) :
    r + base * q < r' + base * q' ↔ q < q' ∨ q = q' ∧ r < r' := by
  rcases Nat.lt_trichotomy q q' with hq | rfl | hq
  · have hle : base * (q + 1) ≤ base * q' := Nat.mul_le_mul_left base hq
    rw [Nat.mul_succ] at hle
    omega
  · omega
  · have hle : base * (q' + 1) ≤ base * q := Nat.mul_le_mul_left base hq
    rw [Nat.mul_succ] at hle
    omega

theorem add_mul_inj {base q r q' r' : Nat} (hr : r < base) (hr' : r' < base) :
    r + base * q = r' + base * q' ↔ q = q' ∧ r = r' := by
  have hlt : r + base * q < r' + base * q' ↔ _ := add_mul_lt_iff hr hr'
  have hgt : r' + base * q' < r + base * q ↔ _ := add_mul_lt_iff hr' hr
  constructor
  · intro heq
    omega
  · rintro ⟨rfl, rfl⟩
    rfl

theorem places_append_lt_iff (width n m : Nat) (cs ds : List Char) :
    places width n ++ cs < places width m ++ ds ↔
      n % 10 ^ width < m % 10 ^ width ∨ n % 10 ^ width = m % 10 ^ width ∧ cs < ds := by
  induction width with
  | zero => simp [places, Nat.mod_one]
  | succ width ih =>
    have hpos : 0 < 10 ^ width := Nat.pow_pos (by omega)
    have hn := Nat.mod_lt n hpos
    have hm := Nat.mod_lt m hpos
    have hdigit (n : Nat) : n / 10 ^ width % 10 < 10 := Nat.mod_lt _ (by omega)
    rw [places, places, List.cons_append, List.cons_append, List.cons_lt_cons_iff,
      digitChar_lt_iff (hdigit n) (hdigit m), digitChar_inj (hdigit n) (hdigit m), ih,
      Nat.mod_pow_succ, Nat.mod_pow_succ, add_mul_lt_iff hn hm, add_mul_inj hn hm]
    tauto

theorem padded_append_lt_iff {width n m : Nat} (hwidth : 0 < width) (hn : n < 10 ^ width)
    (hm : m < 10 ^ width) (cs ds : List Char) :
    (padded width n).toList ++ cs < (padded width m).toList ++ ds ↔ n < m ∨ n = m ∧ cs < ds := by
  rw [toList_padded hwidth hn, toList_padded hwidth hm, places_append_lt_iff, Nat.mod_eq_of_lt hn,
    Nat.mod_eq_of_lt hm]

end SiteVisit.Text

namespace SiteVisit.Calendar.IsoText

open Text (places padded)

theorem digitsFrom?_places (start width n : Nat) (rest : List Char) :
    digitsFrom? start width (places width n ++ rest) =
      some (start * 10 ^ width + n % 10 ^ width, rest) := by
  induction width generalizing start with
  | zero => simp [places, digitsFrom?, Nat.mod_one]
  | succ width ih =>
    have hdigit := Text.asciiDigit?_digitChar (Nat.mod_lt (n / 10 ^ width) (y := 10) (by omega))
    rw [places, List.cons_append, digitsFrom?, hdigit, Option.bind_some, ih, Nat.mod_pow_succ,
      Nat.pow_succ]
    congr 2
    ring

theorem digits?_padded {width n : Nat} (hwidth : 0 < width) (h : n < 10 ^ width)
    (rest : List Char) : digits? width ((padded width n).toList ++ rest) = some (n, rest) := by
  rw [digits?, Text.toList_padded hwidth h, digitsFrom?_places, Nat.mod_eq_of_lt h, Nat.zero_mul,
    Nat.zero_add]

end SiteVisit.Calendar.IsoText
