import Mathlib.Logic.Basic
import SiteVisit.Settings.Number

namespace SiteVisit

theorem append_cons_inj {α : Type} {a : α} {before before' after after' : List α} (h : a ∉ after)
    (h' : a ∉ after') (heq : before ++ a :: after = before' ++ a :: after') :
    before = before' ∧ after = after' := by
  rcases List.append_eq_append_iff.mp heq with ⟨between, rfl, hafter⟩ | ⟨between, rfl, hafter⟩
  · cases between with
    | nil => exact ⟨(List.append_nil _).symm, (List.cons.inj hafter).2⟩
    | cons first rest =>
      have hmem : a ∈ after := (List.cons.inj hafter).2 ▸ List.mem_append_right rest List.mem_cons_self
      exact absurd hmem h
  · cases between with
    | nil => exact ⟨List.append_nil _, ((List.cons.inj hafter).2).symm⟩
    | cons first rest =>
      have hmem : a ∈ after' := (List.cons.inj hafter).2 ▸ List.mem_append_right rest List.mem_cons_self
      exact absurd hmem h'

namespace Text

theorem exists_digitChar_of_mem_toDigits {c : Char} {n : Nat} (h : c ∈ Nat.toDigits 10 n) :
    ∃ d < 10, c = Nat.digitChar d := by
  induction n using Nat.strongRecOn with
  | ind n ih =>
    by_cases hn : n < 10
    · rw [Nat.toDigits_of_lt_base hn] at h
      exact ⟨n, hn, List.mem_singleton.mp h⟩
    · rw [Nat.toDigits_of_base_le (by omega) (by omega), List.mem_append, List.mem_singleton] at h
      rcases h with h | h
      · exact ih (n / 10) (by omega) h
      · exact ⟨n % 10, Nat.mod_lt n (by omega), h⟩

theorem digitValue?_digitChar {d : Nat} (h : d < 10) : digitValue? (Nat.digitChar d) = some d := by
  have hall : ∀ d : Fin 10, digitValue? (Nat.digitChar d) = some d.val := by decide
  exact hall ⟨d, h⟩

theorem digitsValue_append (cs : List Char) (c : Char) :
    digitsValue (cs ++ [c]) = 10 * digitsValue cs + (digitValue? c).getD 0 := by
  rw [digitsValue, List.foldl_append]
  rfl

theorem digitsValue_toDigits (n : Nat) : digitsValue (Nat.toDigits 10 n) = n := by
  induction n using Nat.strongRecOn with
  | ind n ih =>
    by_cases hn : n < 10
    · have hvalue := digitsValue_append [] (Nat.digitChar n)
      rw [digitValue?_digitChar hn] at hvalue
      rw [Nat.toDigits_of_lt_base hn]
      exact hvalue.trans (Nat.zero_add n)
    · rw [Nat.toDigits_of_base_le (by omega) (by omega), digitsValue_append, ih (n / 10) (by omega),
        digitValue?_digitChar (Nat.mod_lt n (by omega)), Option.getD_some]
      exact Nat.div_add_mod n 10

theorem toList_decimal (n : Nat) : (decimal n).toList = Nat.toDigits 10 n := by
  rw [decimal, String.toList_ofList]

theorem toDigits_inj {m n : Nat} : Nat.toDigits 10 m = Nat.toDigits 10 n ↔ m = n :=
  ⟨fun h => by rw [← digitsValue_toDigits m, h, digitsValue_toDigits], congrArg _⟩

theorem decimal_inj {m n : Nat} : decimal m = decimal n ↔ m = n := by
  rw [← String.toList_inj, toList_decimal, toList_decimal, toDigits_inj]

end Text

theorem digitChar_plain {d : Nat} (h : d < 10) :
    Text.isDigit (Nat.digitChar d) = true ∧ isSpacing (Nat.digitChar d) = false ∧
      Nat.digitChar d ≠ '_' ∧ Nat.digitChar d ≠ '-' ∧ Nat.digitChar d ≠ '+' := by
  have hall : ∀ d : Fin 10, Text.isDigit (Nat.digitChar d) = true ∧
      isSpacing (Nat.digitChar d) = false ∧ Nat.digitChar d ≠ '_' ∧ Nat.digitChar d ≠ '-' ∧
      Nat.digitChar d ≠ '+' := by decide
  exact hall ⟨d, h⟩

theorem underscore_notMem_decimal (n : Nat) : '_' ∉ (Text.decimal n).toList := by
  intro h
  rw [Text.toList_decimal] at h
  obtain ⟨d, hd, heq⟩ := Text.exists_digitChar_of_mem_toDigits h
  exact (digitChar_plain hd).2.2.1 heq.symm

theorem groupedDigits?_of_digits {cs : List Char} (h : ∀ c ∈ cs, ∃ d < 10, c = Nat.digitChar d)
    {afterDigit : Bool} (hsome : afterDigit = true ∨ cs ≠ []) :
    groupedDigits? afterDigit cs = some cs := by
  induction cs generalizing afterDigit with
  | nil =>
    obtain rfl := hsome.resolve_right (not_not.mpr rfl)
    rfl
  | cons c cs ih =>
    obtain ⟨⟨d, hd, rfl⟩, hcs⟩ := List.forall_mem_cons.mp h
    obtain ⟨hdigit, -, hunderscore, -⟩ := digitChar_plain hd
    rw [groupedDigits?, if_pos hdigit, ih hcs (.inl rfl), Option.map_some]
    exact hunderscore

theorem dropWhile_isSpacing_of_digits {cs : List Char}
    (h : ∀ c ∈ cs, ∃ d < 10, c = Nat.digitChar d) : cs.dropWhile isSpacing = cs := by
  cases cs with
  | nil => rfl
  | cons c cs =>
    obtain ⟨d, hd, rfl⟩ := h c List.mem_cons_self
    rw [List.dropWhile_cons_of_neg (by rw [(digitChar_plain hd).2.1]; exact Bool.false_ne_true)]

theorem wholeNumber?_decimal {n : Nat} (h : (Nat.toDigits 10 n).length ≤ mostDigits) :
    wholeNumber? (Text.decimal n) = some (n : Int) := by
  have hdigits : ∀ c ∈ Nat.toDigits 10 n, ∃ d < 10, c = Nat.digitChar d :=
    fun c hc => Text.exists_digitChar_of_mem_toDigits hc
  have hread : groupedDigits? false (Nat.toDigits 10 n) = some (Nat.toDigits 10 n) :=
    groupedDigits?_of_digits hdigits (.inr Nat.toDigits_ne_nil)
  have hreverse : ∀ c ∈ (Nat.toDigits 10 n).reverse, ∃ d < 10, c = Nat.digitChar d :=
    fun c hc => hdigits c (List.mem_reverse.mp hc)
  rw [wholeNumber?, Text.toList_decimal, dropWhile_isSpacing_of_digits hdigits,
    dropWhile_isSpacing_of_digits hreverse, List.reverse_reverse]
  split
  next negative cs hsign =>
    -- The first digit is no sign.
    obtain ⟨rfl, rfl⟩ : negative = false ∧ cs = Nat.toDigits 10 n := by
      split at hsign
      · next rest heq =>
        obtain ⟨d, hd, hc⟩ := hdigits '-' (heq ▸ List.mem_cons_self)
        exact absurd hc.symm (digitChar_plain hd).2.2.2.1
      · next rest heq =>
        obtain ⟨d, hd, hc⟩ := hdigits '+' (heq ▸ List.mem_cons_self)
        exact absurd hc.symm (digitChar_plain hd).2.2.2.2
      · cases hsign
        exact ⟨rfl, rfl⟩
    rw [hread, Option.bind_eq_bind, Option.bind_some, if_neg (Nat.not_lt.mpr h),
      Text.digitsValue_toDigits]
    rfl

end SiteVisit
