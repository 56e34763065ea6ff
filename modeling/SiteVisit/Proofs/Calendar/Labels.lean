import SiteVisit.Calendar.Span
import SiteVisit.Calendar.TimeOfDay
import SiteVisit.Proofs.Text.Chars

namespace SiteVisit

namespace Text

def IsPlain (c : Char) : Prop := 32 ≤ c.toNat ∧ c.toNat ≤ 126

instance : DecidablePred IsPlain := fun _ => inferInstanceAs (Decidable (_ ∧ _))

theorem toDigits_plain (n : Nat) : ∀ c ∈ Nat.toDigits 10 n, IsPlain c := by
  intro c hc
  have hdigit := Nat.isDigit_of_mem_toDigits (by decide) (by decide) hc
  simp only [Char.isDigit, Bool.and_eq_true, decide_eq_true_eq, ge_iff_le, UInt32.le_iff_toNat_le]
    at hdigit
  have hlow : 48 ≤ c.toNat := hdigit.1
  have hhigh : c.toNat ≤ 57 := hdigit.2
  exact ⟨by omega, by omega⟩

theorem decimal_plain (n : Nat) : OnlyOf IsPlain (decimal n) := .ofList (toDigits_plain n)

theorem signedDecimal_plain (n : Int) : OnlyOf IsPlain (signedDecimal n) := by
  cases n with
  | ofNat n => exact decimal_plain n
  | negSucc n => exact .append (by decide) (decimal_plain (n + 1))

theorem padded_plain (width n : Nat) : OnlyOf IsPlain (padded width n) := by
  refine .ofList fun c hc => ?_
  rcases List.mem_append.mp hc with hc | hc
  · rw [List.eq_of_mem_replicate hc]
    decide
  · exact toDigits_plain n c hc

end Text

namespace Calendar

open Text (OnlyOf IsPlain)

theorem getD_plain {names : List String} (h : ∀ name ∈ names, OnlyOf IsPlain name) (i : Nat) :
    OnlyOf IsPlain (names.getD i "") := by
  rw [List.getD_eq_getElem?_getD]
  cases hi : names[i]? with
  | none => exact .empty
  | some name => exact h name (List.mem_of_getElem? hi)

theorem Date.monthName_plain (d : Date) : OnlyOf IsPlain d.monthName := getD_plain (by decide) _

theorem Date.label_plain (d : Date) : OnlyOf IsPlain d.label :=
  have hweekday : OnlyOf IsPlain d.weekdayName := getD_plain (by decide) _
  (((((hweekday.append (by decide)).append d.monthName_plain).append (by decide)).append
    (Text.decimal_plain _)).append (by decide)).append (Text.decimal_plain _)

theorem TimeOfDay.label_plain (t : TimeOfDay) : OnlyOf IsPlain t.label := by
  refine .append (.append (.append (Text.decimal_plain _) (by decide)) (Text.padded_plain _ _)) ?_
  split <;> decide

theorem Date.monthAndDay_plain (d : Date) : OnlyOf IsPlain d.monthAndDay :=
  (d.monthName_plain.append (by decide)).append (Text.decimal_plain _)

theorem spanLabel_plain (first last : Date) : OnlyOf IsPlain (spanLabel first last) := by
  have hcomma : OnlyOf IsPlain ", " := by decide
  have hdash : OnlyOf IsPlain " - " := by decide
  have hyear (d : Date) : OnlyOf IsPlain (Text.decimal d.year) := Text.decimal_plain _
  rw [spanLabel]
  split
  · exact (first.monthAndDay_plain.append hcomma).append (hyear first)
  · split
    · exact (((first.monthAndDay_plain.append (by decide)).append (Text.decimal_plain _)).append
        hcomma).append (hyear first)
    · split
      · exact (((first.monthAndDay_plain.append hdash).append last.monthAndDay_plain).append
          hcomma).append (hyear first)
      · exact (((((first.monthAndDay_plain.append hcomma).append (hyear first)).append
          hdash).append last.monthAndDay_plain).append hcomma).append (hyear last)

theorem describeSpan_plain (dates : List (Option Date)) : OnlyOf IsPlain (describeSpan dates) := by
  rw [describeSpan]
  split
  · exact .empty
  · exact spanLabel_plain _ _

end Calendar
end SiteVisit
