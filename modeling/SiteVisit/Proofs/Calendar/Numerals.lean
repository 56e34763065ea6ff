import SiteVisit.Calendar.DateLabel
import SiteVisit.Proofs.Text.Lexemes

namespace SiteVisit.Calendar.DateLabel

open Text (Lexeme digitValue? digitsValue isDigit)

structure IsNumber (n : Nat) (piece : List Char) : Prop where
  nonempty : piece ≠ []
  digits : ∀ c ∈ piece, isDigit c = true
  value : digitsValue piece = n

section Numbers

variable {c d : Char} {u v n : Nat} {piece cs rest : List Char}

theorem IsNumber.is_number (h : IsNumber n piece) : Lexeme.number.Is piece :=
  .number h.nonempty h.digits

theorem IsNumber.single (h : digitValue? c = some v) : IsNumber v [c] where
  nonempty := List.cons_ne_nil c []
  digits := by simp [isDigit, h]
  value := by simp [digitsValue, h]

theorem IsNumber.pair (h : digitValue? c = some u) (h' : digitValue? d = some v) :
    IsNumber (10 * u + v) [c, d] where
  nonempty := List.cons_ne_nil c [d]
  digits := by simp [isDigit, h, h']
  value := by simp [digitsValue, h, h']

theorem digitValue?_of_le (h : '0' ≤ c) (h' : c ≤ '9') :
    digitValue? c = some (c.toNat - '0'.toNat) := by
  have hall : ∀ v : Fin 10, digitValue? (Char.ofNat (48 + v)) = some v.val := by decide
  have hlo : 48 ≤ c.toNat := UInt32.le_iff_toNat_le.mp h
  have hhi : c.toNat ≤ 57 := UInt32.le_iff_toNat_le.mp h'
  have hv := hall ⟨c.toNat - 48, by omega⟩
  simp only [Nat.add_sub_cancel' hlo, Char.ofNat_toNat] at hv
  exact hv

theorem digitValue?_of_nonzero? (h : nonzero? c = some v) : digitValue? c = some v := by
  rw [nonzero?] at h
  split at h
  · next hc =>
    simp only [Bool.and_eq_true, decide_eq_true_eq] at hc
    rw [digitValue?_of_le (Char.le_trans (by decide) hc.1) hc.2, h]
  · cases h

theorem mem_nonzero? {cs' : List Char} :
    (n, rest) ∈ ((nonzero? c).map (·, cs')).toList ↔ nonzero? c = some n ∧ rest = cs' := by
  rw [Option.mem_toList, Option.map_eq_some_iff]
  refine ⟨fun ⟨v, hv, heq⟩ => ?_, fun ⟨hn, hrest⟩ => ⟨n, hn, Prod.ext rfl hrest.symm⟩⟩
  cases heq
  exact ⟨hv, rfl⟩

inductive MonthNumeral : Nat → List Char → Prop
  | late {c : Char} (h : '0' ≤ c) (h' : c ≤ '2') :
    MonthNumeral (10 + (c.toNat - '0'.toNat)) ['1', c]
  | padded {c : Char} {n : Nat} (h : nonzero? c = some n) : MonthNumeral n ['0', c]
  | single {c : Char} {n : Nat} (h : nonzero? c = some n) : MonthNumeral n [c]

theorem mem_monthReadings :
    (n, rest) ∈ monthReadings cs ↔ ∃ piece, MonthNumeral n piece ∧ cs = piece ++ rest := by
  constructor
  · intro h
    unfold monthReadings at h
    split at h
    · next c cs =>
      rcases List.mem_append.mp h with h | h
      · obtain ⟨hc, h⟩ := List.mem_ite_nil_right.mp h
        cases List.mem_singleton.mp h
        rw [Bool.and_eq_true, decide_eq_true_eq, decide_eq_true_eq] at hc
        exact ⟨_, .late hc.1 hc.2, rfl⟩
      · cases List.mem_singleton.mp h
        exact ⟨['1'], .single rfl, rfl⟩
    · next c cs =>
      obtain ⟨hc, rfl⟩ := mem_nonzero?.mp h
      exact ⟨_, .padded hc, rfl⟩
    · next c cs _ _ =>
      obtain ⟨hc, rfl⟩ := mem_nonzero?.mp h
      exact ⟨_, .single hc, rfl⟩
    · cases h
  · rintro ⟨piece, hpiece, rfl⟩
    cases hpiece with
    | @late c h h' => simp [monthReadings, h, h']
    | @padded c _ h => simp [monthReadings, h]
    | @single c _ h =>
      show _ ∈ monthReadings (c :: rest)
      unfold monthReadings
      split
      · next heq =>
        cases heq
        cases h
        exact List.mem_append_right _ (List.mem_singleton_self _)
      · next heq =>
        cases heq
        cases h
      · next heq =>
        cases heq
        exact mem_nonzero?.mpr ⟨h, rfl⟩
      · next heq => cases heq

theorem MonthNumeral.isNumber (h : MonthNumeral n piece) : IsNumber n piece := by
  cases h with
  | late h h' =>
    exact .pair (u := 1) (by decide) (digitValue?_of_le h (Char.le_trans h' (by decide)))
  | padded h => simpa using IsNumber.pair (u := 0) (by decide) (digitValue?_of_nonzero? h)
  | single h => exact .single (digitValue?_of_nonzero? h)

inductive DayNumeral : Nat → List Char → Prop
  | last {c : Char} (h : c = '0' ∨ c = '1') : DayNumeral (30 + (c.toNat - '0'.toNat)) ['3', c]
  | late {c d : Char} {v : Nat} (h : c = '1' ∨ c = '2') (hv : digitValue? d = some v) :
    DayNumeral (10 * (c.toNat - '0'.toNat) + v) [c, d]
  | padded {c : Char} {n : Nat} (h : nonzero? c = some n) : DayNumeral n ['0', c]
  | single {c : Char} {n : Nat} (h : nonzero? c = some n) : DayNumeral n [c]
  | spaced {c : Char} {n : Nat} (h : nonzero? c = some n) : DayNumeral n [' ', c]

theorem mem_dayReadings :
    (n, rest) ∈ dayReadings cs ↔ ∃ piece, DayNumeral n piece ∧ cs = piece ++ rest := by
  constructor
  · intro h
    unfold dayReadings at h
    split at h
    · next c d cs =>
      simp only [List.mem_append, List.mem_ite_nil_right, mem_nonzero?, Bool.and_eq_true,
        Bool.or_eq_true, beq_iff_eq, List.mem_singleton, Prod.mk.injEq, or_assoc] at h
      rcases h with ⟨⟨rfl, hd⟩, rfl, rfl⟩ | ⟨hc, h⟩ | ⟨rfl, hd, rfl⟩ | ⟨hc, rfl⟩ | ⟨rfl, hd, rfl⟩
      · exact ⟨_, .last hd, rfl⟩
      · obtain ⟨v, hv, heq⟩ := Option.map_eq_some_iff.mp (Option.mem_toList.mp h)
        cases heq
        exact ⟨_, .late hc hv, rfl⟩
      · exact ⟨_, .padded hd, rfl⟩
      · exact ⟨_, .single hc, rfl⟩
      · exact ⟨_, .spaced hd, rfl⟩
    · next c =>
      obtain ⟨hc, rfl⟩ := mem_nonzero?.mp h
      exact ⟨_, .single hc, rfl⟩
    · cases h
  · rintro ⟨piece, hpiece, rfl⟩
    cases hpiece with
    | last h => rcases h with rfl | rfl <;> simp [dayReadings]
    | late h hv => rcases h with rfl | rfl <;> simp [dayReadings, hv]
    | padded h => simp [dayReadings, h]
    | single h => cases rest <;> simp [dayReadings, h]
    | spaced h => simp [dayReadings, h]

theorem DayNumeral.isNumber (h : DayNumeral n piece) :
    IsNumber n piece ∨ ∃ c, piece = [' ', c] ∧ isDigit c = true := by
  cases h with
  | @last c h =>
    refine .inl (.pair (u := 3) (by decide) ?_)
    rcases h with rfl | rfl <;> decide
  | @late c d v h hv =>
    refine .inl (.pair ?_ hv)
    rcases h with rfl | rfl <;> decide
  | padded h =>
    have hzero : digitValue? '0' = some 0 := by decide
    exact .inl (by simpa using IsNumber.pair hzero (digitValue?_of_nonzero? h))
  | single h => exact .inl (.single (digitValue?_of_nonzero? h))
  | @spaced c _ h => exact .inr ⟨c, rfl, by rw [isDigit, digitValue?_of_nonzero? h]; rfl⟩

theorem year?_eq_some : year? cs = some (n, rest) ↔
    ∃ piece, IsNumber n piece ∧ piece.length = 4 ∧ cs = piece ++ rest := by
  constructor
  · intro h
    unfold year? at h
    split at h
    · next a b c d cs =>
      obtain ⟨hdigits, heq⟩ := Option.ite_none_right_eq_some.mp h
      cases heq
      exact ⟨[a, b, c, d], ⟨List.cons_ne_nil _ _, List.all_eq_true.mp hdigits, rfl⟩, rfl, rfl⟩
    · cases h
  · rintro ⟨piece, hpiece, hlength, rfl⟩
    obtain ⟨a, b, c, d, rfl⟩ := List.length_eq_four.mp hlength
    show (if [a, b, c, d].all isDigit then some (digitsValue [a, b, c, d], rest) else none) = _
    rw [if_pos (List.all_eq_true.mpr hpiece.digits), hpiece.value]

end Numbers

section Numerals

variable {n : Nat} {piece : List Char}

def IsNumeral (n : Nat) (piece : List Char) : Prop :=
  piece = (Text.decimal n).toList ∨ piece = (Text.padded 2 n).toList

theorem forall_of_isNumeral {p : List Char → Prop} (h : p (Text.decimal n).toList)
    (h' : p (Text.padded 2 n).toList) (hpiece : IsNumeral n piece) : p piece := by
  rcases hpiece with rfl | rfl
  · exact h
  · exact h'

theorem monthNumeral_of_isNumeral (hn : 1 ≤ n ∧ n ≤ 12) (h : IsNumeral n piece) :
    MonthNumeral n piece := by
  have hall : ∀ i : Fin 12, (i.val + 1, []) ∈ monthReadings (Text.decimal (i + 1)).toList ∧
      (i.val + 1, []) ∈ monthReadings (Text.padded 2 (i + 1)).toList := by decide
  obtain ⟨n, rfl⟩ := Nat.exists_eq_add_one.mpr hn.1
  obtain ⟨hdecimal, hpadded⟩ := hall ⟨n, by omega⟩
  have hread : (n + 1, []) ∈ monthReadings piece :=
    forall_of_isNumeral (p := fun piece => (n + 1, []) ∈ monthReadings piece) hdecimal hpadded h
  obtain ⟨whole, hwhole, rfl⟩ := mem_monthReadings.mp hread
  rwa [List.append_nil]

theorem dayNumeral_of_isNumeral (hn : 1 ≤ n ∧ n ≤ 31) (h : IsNumeral n piece) :
    DayNumeral n piece := by
  have hall : ∀ i : Fin 31, (i.val + 1, []) ∈ dayReadings (Text.decimal (i + 1)).toList ∧
      (i.val + 1, []) ∈ dayReadings (Text.padded 2 (i + 1)).toList := by decide
  obtain ⟨n, rfl⟩ := Nat.exists_eq_add_one.mpr hn.1
  obtain ⟨hdecimal, hpadded⟩ := hall ⟨n, by omega⟩
  have hread : (n + 1, []) ∈ dayReadings piece :=
    forall_of_isNumeral (p := fun piece => (n + 1, []) ∈ dayReadings piece) hdecimal hpadded h
  obtain ⟨whole, hwhole, rfl⟩ := mem_dayReadings.mp hread
  rwa [List.append_nil]

theorem isNumber_of_isNumeral (hn : 1 ≤ n ∧ n ≤ 31) (h : IsNumeral n piece) : IsNumber n piece := by
  refine (dayNumeral_of_isNumeral hn h).isNumber.resolve_right ?_
  rintro ⟨c, rfl, -⟩
  have hall : ∀ i : Fin 31, ' ' ∉ (Text.decimal (i + 1)).toList ∧
      ' ' ∉ (Text.padded 2 (i + 1)).toList := by decide
  obtain ⟨n, rfl⟩ := Nat.exists_eq_add_one.mpr hn.1
  obtain ⟨hdecimal, hpadded⟩ := hall ⟨n, by omega⟩
  exact forall_of_isNumeral (p := fun piece => ' ' ∉ piece) hdecimal hpadded h List.mem_cons_self

theorem isNumber_decimal (n : Nat) : IsNumber n (Text.decimal n).toList := by
  rw [Text.toList_decimal]
  have his := Lexeme.is_toDigits n
  exact ⟨his.nonempty, fun c hc => Lexeme.ofChar_eq_number_iff.mp (his.ofChar_eq c hc),
    Text.digitsValue_toDigits n⟩

theorem length_decimal_year (h : 1000 ≤ n) (h' : n ≤ 9999) :
    (Text.decimal n).toList.length = 4 := by
  rw [Text.toList_decimal, Nat.toDigits_of_base_le (by omega) (by omega),
    Nat.toDigits_of_base_le (by omega) (by omega), Nat.toDigits_of_base_le (by omega) (by omega),
    Nat.toDigits_of_lt_base (by omega)]
  rfl

end Numerals

end SiteVisit.Calendar.DateLabel
