import SiteVisit.Proofs.Text.Spaced

namespace SiteVisit.Text

/-- Small letters and digits, with hyphens that stand alone between them. -/
inductive IsHyphenated : List Char → Prop
  | one {c} : isLatin c = true → IsHyphenated [c]
  | cons {c cs} : isLatin c = true → IsHyphenated cs → IsHyphenated (c :: cs)
  | hyphen {c cs} : isLatin c = true → IsHyphenated cs → IsHyphenated (c :: '-' :: cs)

def IsSlug (s : String) : Prop := s = "" ∨ IsHyphenated s.toList

/-- The words between the spaces of a text, when it has been put in lower case and all characters
but small letters, digits and spaces have been taken out. -/
def slugWords (s : String) : List String :=
  ((((s.toList.flatMap lower).filter fun c => isLatin c || c == ' ').splitOn ' ').filter
    (!·.isEmpty)).map String.ofList

def unhyphen (cs : List Char) : List Char := cs.map fun c => if c = '-' then ' ' else c

def unhyphened (s : String) : String := String.ofList (unhyphen s.toList)

section Latin

variable {c : Char}

def latinCodes : List Nat := List.range' 97 26 ++ List.range' 48 10

theorem mem_latinCodes (h : isLatin c = true) : c.toNat ∈ latinCodes := by
  simp only [isLatin, Bool.or_eq_true, Bool.and_eq_true, decide_eq_true_eq, Char.le_def,
    UInt32.le_iff_toNat_le] at h
  simp only [latinCodes, List.mem_append, List.mem_range'_1]
  rcases h with ⟨hlo, hhi⟩ | ⟨hlo, hhi⟩
  · exact .inl ⟨hlo, Nat.lt_succ_of_le hhi⟩
  · exact .inr ⟨hlo, Nat.lt_succ_of_le hhi⟩

theorem forall_of_isLatin {p : Char → Prop} (h : ∀ n ∈ latinCodes, p (Char.ofNat n))
    (hc : isLatin c = true) : p c :=
  of_toNat_mem h (mem_latinCodes hc)

theorem kept_of_isLatin (h : isLatin c = true) : kept c = [c] :=
  forall_of_isLatin (p := fun c => kept c = [c]) (by decide) h

theorem ne_hyphen_of_isLatin (h : isLatin c = true) : c ≠ '-' := by
  rintro rfl
  exact absurd h (by decide)

theorem isBlank_of_isLatin (h : isLatin c = true) : isBlank c = false := by
  rw [← Bool.not_eq_true]
  exact fun hblank => absurd h (by rw [isLatin_of_isBlank c hblank]; exact Bool.false_ne_true)

end Latin

section Words

variable {cs : List Char}

theorem words_eq_splitOn (h : ∀ c ∈ cs, isBlank c = (c == ' ')) :
    words cs = (cs.splitOn ' ').filter (!·.isEmpty) := by
  have hsplit : cs.splitOnP isBlank = cs.splitOn ' ' := by
    induction cs with
    | nil => rfl
    | cons c cs ih =>
      obtain ⟨hc, hcs⟩ := List.forall_mem_cons.mp h
      rw [List.splitOnP_cons_eq_if_modifyHead, List.splitOn_cons_eq_if_modifyHead, hc, ih hcs]
  rw [words, hsplit]

theorem remains_eq_filter (cs : List Char) :
    remains cs = (cs.flatMap lower).filter fun c => isLatin c || c == ' ' :=
  List.filter_flatMap.symm

theorem isBlank_eq_of_mem_remains {c : Char} (h : c ∈ remains cs) : isBlank c = (c == ' ') := by
  rw [remains_eq_filter] at h
  rcases Bool.or_eq_true_iff.mp (List.mem_filter.mp h).2 with hlatin | hspace
  · rw [isBlank_of_isLatin hlatin]
    exact (beq_false_of_ne fun heq => absurd hlatin (by rw [heq]; decide)).symm
  · rw [hspace, beq_iff_eq.mp hspace]
    decide

theorem slugWords_eq (s : String) :
    slugWords s = (words (remains s.toList)).map String.ofList := by
  rw [words_eq_splitOn fun _ => isBlank_eq_of_mem_remains, remains_eq_filter, slugWords]

theorem slug_eq_intercalate (s : String) : slug s = "-".intercalate (slugWords s) := by
  have hhyphen : "-".toList = ['-'] := rfl
  rw [← String.toList_inj, slug, String.toList_ofList, slugChars_eq, String.toList_intercalate,
    hhyphen, slugWords_eq, List.map_map]
  simp [Function.comp_def]

theorem of_mem_slugWords {s w : String} (h : w ∈ slugWords s) :
    w ≠ "" ∧ ∀ c ∈ w.toList, isLatin c = true := by
  rw [slugWords_eq] at h
  obtain ⟨cs, hcs, rfl⟩ := List.mem_map.mp h
  rw [String.toList_ofList, ← String.toList_inj.ne, String.toList_ofList]
  refine ⟨by simpa using (List.mem_filter.mp hcs).2, fun c hc => ?_⟩
  have hmem : c ∈ (words (remains s.toList)).flatten := List.mem_flatten.mpr ⟨cs, hcs, hc⟩
  rw [flatten_words] at hmem
  obtain ⟨hremains, hsolid⟩ := List.mem_filter.mp hmem
  rw [isBlank_eq_of_mem_remains hremains, Bool.not_eq_true', beq_eq_false_iff_ne] at hsolid
  rw [remains_eq_filter] at hremains
  exact (Bool.or_eq_true_iff.mp (List.mem_filter.mp hremains).2).resolve_right
    fun hspace => hsolid (beq_iff_eq.mp hspace)

end Words

section Grammar

variable {c : Char} {cs rest : List Char} {s : String}

theorem isHyphenated_of_latin (hne : cs ≠ []) (h : ∀ c ∈ cs, isLatin c = true) :
    IsHyphenated cs := by
  induction cs with
  | nil => exact absurd rfl hne
  | cons c cs ih =>
    obtain ⟨hc, hcs⟩ := List.forall_mem_cons.mp h
    cases cs with
    | nil => exact .one hc
    | cons d cs => exact .cons hc (ih (List.cons_ne_nil d cs) hcs)

theorem IsHyphenated.append (hne : cs ≠ []) (h : ∀ c ∈ cs, isLatin c = true)
    (hrest : IsHyphenated rest) : IsHyphenated (cs ++ '-' :: rest) := by
  induction cs with
  | nil => exact absurd rfl hne
  | cons c cs ih =>
    obtain ⟨hc, hcs⟩ := List.forall_mem_cons.mp h
    cases cs with
    | nil => exact .hyphen hc hrest
    | cons d cs => exact .cons hc (ih (List.cons_ne_nil d cs) hcs)

theorem isHyphenated_intercalate {ws : List String} (hne : ws ≠ [])
    (h : ∀ w ∈ ws, w ≠ "" ∧ ∀ c ∈ w.toList, isLatin c = true) :
    IsHyphenated ("-".intercalate ws).toList := by
  induction ws with
  | nil => exact absurd rfl hne
  | cons w ws ih =>
    obtain ⟨⟨hw, hlatin⟩, hws⟩ := List.forall_mem_cons.mp h
    have hletters : w.toList ≠ [] := mt String.toList_eq_nil_iff.mp hw
    cases ws with
    | nil => simpa using isHyphenated_of_latin hletters hlatin
    | cons w' ws =>
      rw [String.intercalate_cons_cons, String.toList_append, String.toList_append,
        List.append_assoc]
      exact .append hletters hlatin (ih (List.cons_ne_nil w' ws) hws)

theorem isSlug_slug (s : String) : IsSlug (slug s) := by
  rw [slug_eq_intercalate]
  by_cases hnone : slugWords s = []
  · rw [hnone]
    exact .inl rfl
  · exact .inr (isHyphenated_intercalate hnone fun _ => of_mem_slugWords)

theorem unhyphen_cons (hc : isLatin c = true) : unhyphen (c :: cs) = c :: unhyphen cs := by
  rw [unhyphen, List.map_cons, if_neg (ne_hyphen_of_isLatin hc), unhyphen]

theorem unhyphen_hyphen (cs : List Char) : unhyphen ('-' :: cs) = ' ' :: unhyphen cs := rfl

theorem remains_cons (hc : isLatin c = true) : remains (c :: cs) = c :: remains cs := by
  rw [remains, List.flatMap_cons, kept_of_isLatin hc, List.singleton_append, remains]

theorem remains_space (cs : List Char) : remains (' ' :: cs) = ' ' :: remains cs := by
  rw [remains, List.flatMap_cons, kept_space, List.singleton_append, remains]

theorem isBare_of_isLatin (hc : isLatin c = true) : IsBare [c] := by
  simp [isBare_iff, isBlank_of_isLatin hc]

namespace IsHyphenated

theorem remains_unhyphen (h : IsHyphenated cs) : remains (unhyphen cs) = unhyphen cs := by
  induction h with
  | one hc =>
    rw [unhyphen_cons hc, remains_cons hc]
    rfl
  | cons hc _ ih => rw [unhyphen_cons hc, remains_cons hc, ih]
  | hyphen hc _ ih => rw [unhyphen_cons hc, unhyphen_hyphen, remains_cons hc, remains_space, ih]

theorem isBare_unhyphen (h : IsHyphenated cs) : IsBare (unhyphen cs) := by
  induction h with
  | one hc => exact unhyphen_cons hc ▸ isBare_of_isLatin hc
  | cons hc _ ih => exact unhyphen_cons hc ▸ (isBare_of_isLatin hc).join ih []
  | hyphen hc _ ih => exact unhyphen_cons hc ▸ (isBare_of_isLatin hc).join ih [' ']

theorem squeezeFrom_unhyphen (h : IsHyphenated cs) (inRun : Bool) :
    squeezeFrom '-' inRun (unhyphen cs) = cs := by
  have hspace : isBlank ' ' = true := by decide
  induction h generalizing inRun with
  | one hc =>
    rw [unhyphen_cons hc, squeezeFrom, isBlank_of_isLatin hc, if_neg Bool.false_ne_true]
    rfl
  | cons hc _ ih =>
    rw [unhyphen_cons hc, squeezeFrom, isBlank_of_isLatin hc, if_neg Bool.false_ne_true, ih]
  | hyphen hc _ ih =>
    rw [unhyphen_cons hc, squeezeFrom, isBlank_of_isLatin hc, if_neg Bool.false_ne_true,
      unhyphen_hyphen, squeezeFrom, if_pos hspace, if_neg Bool.false_ne_true, ih]

theorem slugChars_unhyphen (h : IsHyphenated cs) : slugChars (unhyphen cs) = cs := by
  rw [slugChars_eq_squeeze, h.remains_unhyphen, h.isBare_unhyphen.trimChars, squeeze,
    h.squeezeFrom_unhyphen]

end IsHyphenated

theorem isSlug_iff : IsSlug s ↔ slug (unhyphened s) = s := by
  constructor
  · rintro (rfl | h)
    · rfl
    · rw [slug, unhyphened, String.toList_ofList, h.slugChars_unhyphen, String.ofList_toList]
  · exact fun h => h ▸ isSlug_slug _

instance (s : String) : Decidable (IsSlug s) := decidable_of_iff _ isSlug_iff.symm

example : IsSlug "maryann-oneil" ∧ ¬ IsSlug "mary--ann" ∧ ¬ IsSlug "-oneil" := by decide

/-- The slug of a text has the words that are left of it, with a hyphen between each two of them.
With spaces for its hyphens it has itself for a slug; so exactly the texts of this form are slugs. -/
theorem slug_form (s : String) :
    slug s = "-".intercalate (slugWords s) ∧
    (∀ w ∈ slugWords s, w ≠ "" ∧ ∀ c ∈ w.toList, isLatin c = true) ∧
    IsSlug (slug s) ∧
    slug (unhyphened (slug s)) = slug s ∧
    (IsSlug s ↔ ∃ name, slug name = s) := by
  refine ⟨slug_eq_intercalate s, fun _ => of_mem_slugWords, isSlug_slug s,
    isSlug_iff.mp (isSlug_slug s), fun h => ⟨unhyphened s, isSlug_iff.mp h⟩, ?_⟩
  rintro ⟨name, rfl⟩
  exact isSlug_slug name

theorem slug_form_janeDoe : slugWords "Dr. Jane  Doe" = ["dr", "jane", "doe"] ∧
    slug "Dr. Jane  Doe" = "dr-jane-doe" ∧ slug "dr jane doe" = "dr-jane-doe" := by
  have hwords : slugWords "Dr. Jane  Doe" = ["dr", "jane", "doe"] := by decide
  have hjoined : "-".intercalate ["dr", "jane", "doe"] = "dr-jane-doe" := by decide
  obtain ⟨hslug, -, -, hagain, -⟩ := slug_form "Dr. Jane  Doe"
  rw [hwords, hjoined] at hslug
  rw [hslug] at hagain
  exact ⟨hwords, hslug, hagain⟩

end Grammar
end SiteVisit.Text
