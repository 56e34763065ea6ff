import SiteVisit.Proofs.Calendar.Layouts
import SiteVisit.Proofs.Text.Spaced
import SiteVisit.Proofs.Text.Tidy

namespace SiteVisit.Calendar.DateLabel

open Text (IsTidy Lexeme isBlank isDigit words)

section Endings

variable {c : Char} {ending piece rest : List Char}

def ordinalEndings : List (List Char) := ["st", "nd", "rd", "th"].map String.toList

theorem isAlpha_of_isOrdinalEnding {a b : Char} (h : isOrdinalEnding a b = true) :
    a.isAlpha = true := by
  simp only [isOrdinalEnding, Bool.or_eq_true, Bool.and_eq_true, beq_iff_eq] at h
  rcases h with ((⟨rfl, -⟩ | ⟨rfl, -⟩) | ⟨rfl, -⟩) | ⟨rfl, -⟩ <;> decide

theorem isAlpha_of_isDigit (h : isDigit c = true) : c.isAlpha = false := by
  have hall : ∀ i : Fin 128, (Char.ofNat i).isAlpha = true → isDigit (Char.ofNat i) = false := by
    decide
  rw [← Bool.not_eq_true]
  intro halpha
  have hlt : c.toNat < 128 := by
    have hletter : (decide ('A'.val ≤ c.val ∧ c.val ≤ 'Z'.val) ||
      decide ('a'.val ≤ c.val) && decide (c.val ≤ 'z'.val)) = true := halpha
    simp only [Bool.or_eq_true, Bool.and_eq_true, decide_eq_true_eq,
      UInt32.le_iff_toNat_le] at hletter
    rcases hletter with ⟨-, hlast⟩ | ⟨-, hlast⟩
    · exact Nat.lt_of_le_of_lt hlast (by decide)
    · exact Nat.lt_of_le_of_lt hlast (by decide)
  have hdigit := hall ⟨c.toNat, hlt⟩
  simp only [Char.ofNat_toNat] at hdigit
  rw [hdigit halpha] at h
  cases h

theorem dropOrdinalEndings_cons (h : isDigit c = true → ∀ a ∈ rest.head?, a.isAlpha = false) :
    dropOrdinalEndings (c :: rest) = c :: dropOrdinalEndings rest := by
  match rest with
  | [] => rfl
  | [a] => rfl
  | a :: b :: rest =>
    rw [dropOrdinalEndings, if_neg]
    simp only [Bool.and_eq_true, not_and]
    intro ⟨hc, hending⟩
    have halpha := isAlpha_of_isOrdinalEnding hending
    rw [h hc a rfl] at halpha
    cases halpha

theorem dropOrdinalEndings_append (h : ∀ c ∈ piece, isDigit c = false) (rest : List Char) :
    dropOrdinalEndings (piece ++ rest) = piece ++ dropOrdinalEndings rest := by
  induction piece with
  | nil => rfl
  | cons c piece ih =>
    obtain ⟨hc, hpiece⟩ := List.forall_mem_cons.mp h
    rw [List.cons_append, dropOrdinalEndings_cons (fun hdigit => by simp [hc] at hdigit), ih hpiece,
      List.cons_append]

theorem isAlpha_of_endsWord (h : endsWord rest = true) : ∀ a ∈ rest.head?, a.isAlpha = false := by
  intro a ha
  obtain ⟨tail, rfl⟩ := List.head?_eq_some_iff.mp ha
  simp only [endsWord, Char.isAlphanum, Bool.not_eq_true', Bool.or_eq_false_iff] at h
  exact h.1.1.1

theorem dropOrdinalEndings_number (hne : piece ≠ []) (hdigits : ∀ c ∈ piece, isDigit c = true)
    (hending : ending = [] ∨ ending ∈ ordinalEndings) (hrest : endsWord rest = true) :
    dropOrdinalEndings (piece ++ (ending ++ rest)) = piece ++ dropOrdinalEndings rest := by
  induction piece with
  | nil => exact absurd rfl hne
  | cons c piece ih =>
    obtain ⟨hc, hpiece⟩ := List.forall_mem_cons.mp hdigits
    cases piece with
    | nil =>
      rcases hending with rfl | hending
      · exact dropOrdinalEndings_cons fun _ => isAlpha_of_endsWord hrest
      · have hall : ∀ ending ∈ ordinalEndings,
            ∃ a b, ending = [a, b] ∧ isOrdinalEnding a b = true := by
          simp [ordinalEndings, isOrdinalEnding]
        obtain ⟨a, b, rfl, hab⟩ := hall ending hending
        simp only [List.cons_append, List.nil_append]
        rw [dropOrdinalEndings, hc, hab, hrest]
        rfl
    | cons c' piece =>
      have hnext : c'.isAlpha = false := isAlpha_of_isDigit (hpiece c' List.mem_cons_self)
      rw [List.cons_append, dropOrdinalEndings_cons (fun _ a ha => by cases ha; exact hnext),
        ih (List.cons_ne_nil c' piece) hpiece]
      rfl

end Endings

def Part.Writes (d : Date) (ending piece : List Char) : Part → Prop
  | .weekday => IsSpelling d.weekdayName.toList piece
  | .monthName => IsSpelling d.monthName.toList piece
  | .shortMonthName => IsSpelling (d.monthName.toList.take 3) piece
  | .month => IsNumeral d.month piece
  | .day => ∃ numeral, IsNumeral d.day numeral ∧ piece = numeral ++ ending
  | .year => piece = (Text.decimal d.year).toList
  | .mark c => piece = [c]

section Written

variable {d : Date} {ending piece rest : List Char} {p : Part} {ps : List Part}
  {pieces : List (List Char)} {f g : Found}

theorem getElem?_weekdayName (d : Date) :
    (fullNames weekdayNames)[d.weekday]? = some d.weekdayName.toList := by
  have hd : d.weekday < weekdayNames.length := Nat.mod_lt _ (by decide)
  rw [fullNames, List.getElem?_map, Date.weekdayName, List.getD_eq_getElem?_getD,
    List.getElem?_eq_getElem hd]
  rfl

theorem getElem?_monthName (d : Date) : monthNames[d.month - 1]? = some d.monthName := by
  have hd : d.month - 1 < monthNames.length := by
    have hmonth := d.month_range
    exact (by omega : d.month - 1 < 12)
  rw [Date.monthName, List.getD_eq_getElem?_getD, List.getElem?_eq_getElem hd]
  rfl

theorem getElem?_fullName (d : Date) :
    (fullNames monthNames)[d.month - 1]? = some d.monthName.toList := by
  rw [fullNames, List.getElem?_map, getElem?_monthName]
  rfl

theorem getElem?_shortName (d : Date) :
    (shortNames monthNames)[d.month - 1]? = some (d.monthName.toList.take 3) := by
  rw [shortNames, List.getElem?_map, getElem?_monthName]
  rfl

theorem namesMonth_of_full (h : IsSpelling d.monthName.toList piece) :
    NamesMonth (d.month - 1) piece := ⟨_, .inl (getElem?_fullName d), h⟩

theorem namesMonth_of_short (h : IsSpelling (d.monthName.toList.take 3) piece) :
    NamesMonth (d.month - 1) piece := ⟨_, .inr (getElem?_shortName d), h⟩

theorem day_range (d : Date) : 1 ≤ d.day ∧ d.day ≤ 31 := by
  obtain ⟨hfirst, hlast⟩ := d.day_range
  refine ⟨hfirst, hlast.trans ?_⟩
  rw [daysInMonth]
  split_ifs <;> omega

theorem isNumber_month (h : IsNumeral d.month piece) : IsNumber d.month piece :=
  isNumber_of_isNumeral ⟨d.month_range.1, d.month_range.2.trans (by decide)⟩ h

theorem isNumber_day (h : IsNumeral d.day piece) : IsNumber d.day piece :=
  isNumber_of_isNumeral (day_range d) h

theorem Part.Writes.is_lexeme (hmark : ∀ c, p = .mark c → c ∈ marks) (h : p.Writes d [] piece) :
    p.lexeme.Is piece := by
  cases p with
  | weekday =>
    have hmem := List.mem_of_getElem? (getElem?_weekdayName d)
    exact IsSpelling.is_word h (is_word_of_mem (by simp [hmem]))
  | monthName => exact (namesMonth_of_full h).is_word
  | shortMonthName => exact (namesMonth_of_short h).is_word
  | month => exact (isNumber_month h).is_number
  | day =>
    obtain ⟨numeral, hnumeral, rfl⟩ := h
    rw [List.append_nil]
    exact (isNumber_day hnumeral).is_number
  | year =>
    cases h
    exact (isNumber_decimal d.year).is_number
  | mark c =>
    cases h
    exact is_mark_of_mem (hmark c rfl)

theorem forall₂_is_lexeme (hmarks : ∀ c, .mark c ∈ ps → c ∈ marks)
    (h : List.Forall₂ (fun p piece => p.Writes d [] piece) ps pieces) :
    List.Forall₂ Lexeme.Is (ps.map Part.lexeme) pieces := by
  induction h with
  | nil => exact .nil
  | cons hp _ ih =>
    exact .cons (hp.is_lexeme fun c hc => hmarks c (hc ▸ List.mem_cons_self))
      (ih fun c hc => hmarks c (List.mem_cons_of_mem _ hc))

def Part.put (d : Date) (f : Found) : Part → Found
  | .monthName | .shortMonthName | .month => { f with month := d.month }
  | .day => { f with day := d.day }
  | .year => { f with year := d.year }
  | .weekday | .mark _ => f

theorem Part.Writes.eq_put (h : p.Writes d [] piece) (hmeans : p.Says f piece g) :
    g = p.put d f := by
  have hmonth : d.month - 1 + 1 = d.month := Nat.sub_add_cancel d.month_range.1
  cases p with
  | weekday | mark _ => exact hmeans
  | monthName =>
    obtain ⟨i, hi, rfl⟩ := hmeans
    rw [hi.unique (namesMonth_of_full h), hmonth]
    rfl
  | shortMonthName =>
    obtain ⟨i, hi, rfl⟩ := hmeans
    rw [hi.unique (namesMonth_of_short h), hmonth]
    rfl
  | month =>
    cases hmeans
    rw [(isNumber_month h).value]
    rfl
  | day =>
    cases hmeans
    obtain ⟨numeral, hnumeral, rfl⟩ := h
    rw [List.append_nil, (isNumber_day hnumeral).value]
    rfl
  | year =>
    cases hmeans
    cases h
    rw [(isNumber_decimal d.year).value]
    rfl

theorem Part.Writes.mem_readings (hyear : 1000 ≤ d.year) (h : p.Writes d [] piece)
    (f : Found) (rest : List Char) : (p.put d f, rest) ∈ p.readings f (piece ++ rest) := by
  have hmonth : d.month - 1 + 1 = d.month := Nat.sub_add_cancel d.month_range.1
  cases p with
  | weekday =>
    have hname := name?_of_isSpelling unmistakable_weekdays (getElem?_weekdayName d) h rest
    simp [Part.readings, hname, Part.put]
  | monthName =>
    have hname := name?_of_isSpelling unmistakable_months (getElem?_fullName d) h rest
    simp [Part.readings, hname, Part.put, hmonth]
  | shortMonthName =>
    have hname := name?_of_isSpelling unmistakable_shortMonths (getElem?_shortName d) h rest
    simp [Part.readings, hname, Part.put, hmonth]
  | month =>
    refine List.mem_map.mpr ⟨(d.month, rest), mem_monthReadings.mpr ⟨piece, ?_, rfl⟩, rfl⟩
    exact monthNumeral_of_isNumeral d.month_range h
  | day =>
    obtain ⟨numeral, hnumeral, rfl⟩ := h
    rw [List.append_nil]
    refine List.mem_map.mpr ⟨(d.day, rest), mem_dayReadings.mpr ⟨numeral, ?_, rfl⟩, rfl⟩
    exact dayNumeral_of_isNumeral (day_range d) hnumeral
  | year =>
    cases h
    have hread : year? ((Text.decimal d.year).toList ++ rest) = some (d.year, rest) :=
      year?_eq_some.mpr ⟨_, isNumber_decimal d.year, length_decimal_year hyear d.year_range.2, rfl⟩
    simp [Part.readings, hread, Part.put]
  | mark c =>
    cases h
    simp [Part.readings, Part.put]

theorem isSome_readParts? (hyear : 1000 ≤ d.year)
    (h : List.Forall₂ (fun p piece => p.Writes d [] piece) ps pieces) (f : Found) :
    (readParts? f ps pieces.flatten).isSome := by
  induction h generalizing f with
  | nil => rfl
  | cons hp _ ih =>
    rw [readParts?, List.findSome?_isSome_iff]
    exact ⟨_, hp.mem_readings hyear f _, ih _⟩

theorem Says.eq_foldl (hmeans : Says f ps pieces g)
    (h : List.Forall₂ (fun p piece => p.Writes d [] piece) ps pieces) :
    g = ps.foldl (fun f p => p.put d f) f := by
  induction hmeans with
  | nil f => rfl
  | cons hp hps ih =>
    obtain ⟨hpiece, hpieces⟩ := List.forall₂_cons.mp h
    rw [ih hpieces, hpiece.eq_put hp]
    rfl

end Written

section Normalized

variable {d : Date} {ending piece rest label : List Char} {p : Part} {ps layout : List Part}
  {pieces : List (List Char)}

def Part.precedes (p q : Part) : Bool :=
  (p != .mark ' ' || q != .mark ' ') && (p.lexeme != .number || marks.any (q == .mark ·))

theorem wellSpaced_of_mem_layouts : ∀ layout ∈ layouts,
    (.mark ' ' :: (layout ++ [.mark ' '])).IsChain fun p q => p.precedes q = true := by decide

theorem Part.Writes.of_ne_day (h : p.Writes d ending piece) (hp : p ≠ .day) :
    p.Writes d [] piece := by
  cases p with
  | day => exact absurd rfl hp
  | weekday | monthName | shortMonthName | month | year | mark c => exact h

/-- Only the ending of the number of the day is left out. -/
theorem Part.Writes.dropOrdinalEndings_append (h : p.Writes d ending piece)
    (hmark : ∀ c, p = .mark c → c ∈ marks) (hending : ending = [] ∨ ending ∈ ordinalEndings)
    (hrest : p.lexeme = .number → endsWord rest = true) :
    ∃ plain, p.Writes d [] plain ∧
      dropOrdinalEndings (piece ++ rest) = plain ++ dropOrdinalEndings rest := by
  by_cases hp : p = .day
  · subst hp
    obtain ⟨numeral, hnumeral, rfl⟩ := h
    have hnumber := isNumber_day hnumeral
    refine ⟨numeral, ⟨numeral, hnumeral, (List.append_nil _).symm⟩, ?_⟩
    rw [List.append_assoc]
    exact dropOrdinalEndings_number hnumber.nonempty hnumber.digits hending (hrest rfl)
  · have hplain := h.of_ne_day hp
    have his := hplain.is_lexeme hmark
    have hdigit : ∀ c ∈ piece, isDigit c = true ↔ p.lexeme = .number := fun c hc => by
      rw [← Lexeme.ofChar_eq_number_iff, his.ofChar_eq c hc]
    refine ⟨piece, hplain, ?_⟩
    by_cases hnumber : p.lexeme = .number
    · exact dropOrdinalEndings_number his.nonempty (fun c hc => (hdigit c hc).mpr hnumber)
        (.inl rfl) (hrest hnumber)
    · exact DateLabel.dropOrdinalEndings_append
        (fun c hc => eq_false_of_ne_true fun hc' => hnumber ((hdigit c hc).mp hc')) rest

theorem endsWord_flatten (hmarks : ∀ c, .mark c ∈ ps → c ∈ marks)
    (h : List.Forall₂ (fun p piece => p.Writes d ending piece) ps pieces)
    (hnext : ∀ q ∈ ps.head?, ∃ c, q = .mark c) : endsWord pieces.flatten = true := by
  cases h with
  | nil => rfl
  | @cons q piece ps pieces hq hrest =>
    obtain ⟨c, rfl⟩ := hnext q rfl
    cases hq
    have hall : ∀ c ∈ marks, (c.isAlphanum || c == '_' || isDigit c) = false :=
      List.all_iff_forall_prop.mp (by decide)
    rw [List.flatten_cons, List.singleton_append, endsWord, hall c (hmarks c List.mem_cons_self)]
    rfl

theorem Part.precedes_iff {q : Part} : p.precedes q = true ↔
    (p = .mark ' ' → q ≠ .mark ' ') ∧ (p.lexeme = .number → ∃ c ∈ marks, q = .mark c) := by
  simp only [precedes, Bool.and_eq_true, Bool.or_eq_true, bne_iff_ne, List.any_eq_true, beq_iff_eq,
    imp_iff_not_or]

theorem exists_plain (hmarks : ∀ c, .mark c ∈ ps → c ∈ marks)
    (hps : ps.IsChain fun p q => p.precedes q = true)
    (hending : ending = [] ∨ ending ∈ ordinalEndings)
    (h : List.Forall₂ (fun p piece => p.Writes d ending piece) ps pieces) :
    ∃ plain, List.Forall₂ (fun p piece => p.Writes d [] piece) ps plain ∧
      dropOrdinalEndings pieces.flatten = plain.flatten := by
  induction h with
  | nil => exact ⟨[], .nil, rfl⟩
  | @cons p piece ps pieces hp hrest ih =>
    obtain ⟨hnext, hps⟩ := List.isChain_cons.mp hps
    have hmarks' : ∀ c, .mark c ∈ ps → c ∈ marks := fun c hc => hmarks c (List.mem_cons_of_mem p hc)
    obtain ⟨plain, hplain, heq⟩ := ih hmarks' hps
    have hends : p.lexeme = .number → endsWord pieces.flatten = true := fun hnumber =>
      endsWord_flatten hmarks' hrest fun q hq =>
        let ⟨c, _, hc⟩ := (Part.precedes_iff.mp (hnext q hq)).2 hnumber
        ⟨c, hc⟩
    obtain ⟨first, hfirst, hdrop⟩ := hp.dropOrdinalEndings_append
      (fun c hc => hmarks c (hc ▸ List.mem_cons_self)) hending hends
    refine ⟨first :: plain, .cons hfirst hplain, ?_⟩
    rw [List.flatten_cons, hdrop, heq, List.flatten_cons]

theorem Part.Writes.solid (h : p.Writes d ending piece) (hp : p ≠ .mark ' ')
    (hmark : ∀ c, p = .mark c → c ∈ marks) (hending : ending = [] ∨ ending ∈ ordinalEndings) :
    piece ≠ [] ∧ ∀ c ∈ piece, isBlank c = false := by
  have hblank (c : Char) (hc : isBlank c = true) : Lexeme.ofChar c = .mark c :=
    Text.forall_of_isBlank (p := fun c => Lexeme.ofChar c = .mark c) (by decide) hc
  by_cases hday : p = .day
  · subst hday
    obtain ⟨numeral, hnumeral, rfl⟩ := h
    have his := (isNumber_day hnumeral).is_number
    have hending : ∀ c ∈ ending, isBlank c = false := by
      have hall : ∀ ending ∈ [] :: ordinalEndings, ending.all (isBlank · = false) := by decide
      exact List.all_iff_forall_prop.mp (hall ending (List.mem_cons.mpr hending))
    refine ⟨by simp [his.nonempty], List.forall_mem_append.mpr ⟨fun c hc => ?_, hending⟩⟩
    rw [← Bool.not_eq_true]
    intro hc'
    cases (hblank c hc').symm.trans (his.ofChar_eq c hc)
  · have his := (h.of_ne_day hday).is_lexeme hmark
    refine ⟨his.nonempty, fun c hc => ?_⟩
    rw [← Bool.not_eq_true]
    intro hc'
    have hlexeme : p.lexeme = .mark c := (his.ofChar_eq c hc).symm.trans (hblank c hc')
    cases p with
    | mark m =>
      cases hlexeme
      have hall : ∀ c ∈ marks, isBlank c = true → c = ' ' :=
        List.all_iff_forall_prop.mp (by decide)
      exact hp (congrArg _ (hall c (hmark c rfl) hc'))
    | weekday | monthName | shortMonthName | month | day | year => cases hlexeme

theorem isTidy_append (hpiece : ∀ c ∈ piece, isBlank c = false) (hrest : IsTidy rest) :
    IsTidy (piece ++ rest) := by
  induction piece with
  | nil => exact hrest
  | cons c piece ih =>
    obtain ⟨hc, hpiece⟩ := List.forall_mem_cons.mp hpiece
    refine Text.isTidy_cons.mpr ⟨fun hblank => ?_, fun hblank => ?_, ih hpiece⟩
    · rw [hc] at hblank
      cases hblank
    · rw [hc] at hblank
      cases hblank

theorem isTidy_flatten (hmarks : ∀ c, .mark c ∈ ps → c ∈ marks)
    (hps : ps.IsChain fun p q => p.precedes q = true)
    (hending : ending = [] ∨ ending ∈ ordinalEndings)
    (h : List.Forall₂ (fun p piece => p.Writes d ending piece) ps pieces) :
    IsTidy pieces.flatten := by
  induction h with
  | nil => exact ⟨List.forall_mem_nil _, .nil⟩
  | @cons p piece ps pieces hp hrest ih =>
    obtain ⟨hnext, hps⟩ := List.isChain_cons.mp hps
    have htidy := ih (fun c hc => hmarks c (List.mem_cons_of_mem p hc)) hps
    by_cases hspace : p = .mark ' '
    · subst hspace
      cases hp
      rw [List.flatten_cons, List.singleton_append]
      refine Text.isTidy_cons.mpr ⟨fun _ => rfl, fun _ => ?_, htidy⟩
      cases hrest with
      | nil => exact fun _ hd => nomatch hd
      | @cons q first _ _ hq _ =>
        obtain ⟨hne, hsolid⟩ := hq.solid ((Part.precedes_iff.mp (hnext q rfl)).1 rfl)
          (fun c hc => hmarks c (by simp [hc])) hending
        intro c hc
        rw [List.flatten_cons, List.head?_append_of_ne_nil _ hne] at hc
        exact hsolid c (List.mem_of_head? hc)
    · obtain ⟨-, hsolid⟩ :=
        hp.solid hspace (fun c hc => hmarks c (hc ▸ List.mem_cons_self)) hending
      exact isTidy_append hsolid htidy

theorem normalize_of_writes (hlayout : layout ∈ layouts)
    (hending : ending = [] ∨ ending ∈ ordinalEndings)
    (h : List.Forall₂ (fun p piece => p.Writes d ending piece) layout pieces)
    (hlabel : words label = words pieces.flatten) :
    ∃ plain, List.Forall₂ (fun p piece => p.Writes d [] piece) layout plain ∧
      normalize label = plain.flatten := by
  have hmarks : ∀ c, .mark c ∈ layout → c ∈ marks := fun _ => marks_of_mem_layouts hlayout
  have hspaced := wellSpaced_of_mem_layouts layout hlayout
  have htidy : IsTidy (' ' :: (pieces.flatten ++ [' '])) := by
    have hsurrounded : List.Forall₂ (fun p piece => p.Writes d ending piece)
        (.mark ' ' :: (layout ++ [.mark ' '])) ([' '] :: (pieces ++ [[' ']])) :=
      .cons rfl (List.rel_append h (.cons rfl .nil))
    have hmarks' : ∀ c, .mark c ∈ Part.mark ' ' :: (layout ++ [.mark ' ']) → c ∈ marks := by
      intro c hc
      rw [List.mem_cons, List.mem_append, List.mem_singleton, Part.mark.injEq] at hc
      rcases hc with rfl | hc | rfl
      · decide
      · exact hmarks c hc
      · decide
    simpa using isTidy_flatten hmarks' hspaced hending hsurrounded
  have hbetween : layout.IsChain fun p q => p.precedes q = true :=
    (List.isChain_append.mp (List.isChain_cons.mp hspaced).2).1
  obtain ⟨plain, hplain, hdrop⟩ := exists_plain hmarks hbetween hending h
  exact ⟨plain, hplain, by rw [normalize, Text.trimChars_squeeze_of_words htidy hlabel, hdrop]⟩

theorem foldl_put : ∀ layout ∈ layouts,
    layout.foldl (fun f p => p.put d f) {} = ⟨d.year, d.month, d.day⟩ := by
  simp [layouts, Part.put]

theorem parseChars_of_writes (hyear : 1000 ≤ d.year) (hlayout : layout ∈ layouts)
    (hending : ending = [] ∨ ending ∈ ordinalEndings)
    (h : List.Forall₂ (fun p piece => p.Writes d ending piece) layout pieces)
    (hlabel : words label = words pieces.flatten) : parseChars label = some d := by
  obtain ⟨plain, hplain, hnormal⟩ := normalize_of_writes hlayout hending h hlabel
  have hpieces := forall₂_is_lexeme (fun _ => marks_of_mem_layouts hlayout) hplain
  have hfound {layout' : List Part} (hlayout' : layout' ∈ layouts) {g : Found}
      (hg : readParts? {} layout' plain.flatten = some g) : g = ⟨d.year, d.month, d.day⟩ := by
    rw [(says_of_readParts? hlayout hlayout' hpieces hg).eq_foldl hplain, foldl_put layout hlayout]
  have hday : Date.ofParts? d.year d.month d.day = some d := by
    rw [Date.ofParts?, dif_pos d.year_range, dif_pos d.month_range, dif_pos d.day_range]
  obtain ⟨g, hg⟩ := Option.isSome_iff_exists.mp (isSome_readParts? hyear hplain {})
  have hsome : (parseChars label).isSome := by
    rw [parseChars, hnormal, List.findSome?_isSome_iff]
    refine ⟨layout, hlayout, ?_⟩
    rw [hg, hfound hlayout hg]
    simp [hday]
  obtain ⟨e, he⟩ := Option.isSome_iff_exists.mp hsome
  rw [he]
  rw [parseChars, hnormal] at he
  obtain ⟨layout', hlayout', hread⟩ := List.exists_of_findSome?_eq_some he
  obtain ⟨g, hg, hg'⟩ := Option.bind_eq_some_iff.mp hread
  rw [hfound hlayout' hg, hday] at hg'
  exact hg'.symm

end Normalized

section Labels

variable {d : Date} {text : String}

/-- A text with the words of a label of the day in one of the layouts. It makes no difference which
blanks stand around and between the words. -/
def IsLabelOf (d : Date) (text : String) : Prop :=
  ∃ layout ∈ layouts, ∃ ending pieces, (ending = [] ∨ ending ∈ ordinalEndings) ∧
    List.Forall₂ (fun p piece => p.Writes d ending piece) layout pieces ∧
      words text.toList = words pieces.flatten

theorem IsLabelOf.parse (hyear : 1000 ≤ d.year) (h : IsLabelOf d text) : parse text = some d := by
  obtain ⟨layout, hlayout, ending, pieces, hending, hpieces, hwords⟩ := h
  exact parseChars_of_writes hyear hlayout hending hpieces hwords

theorem IsLabelOf.of_words {text' : String} (h : IsLabelOf d text)
    (hwords : words text'.toList = words text.toList) : IsLabelOf d text' := by
  obtain ⟨layout, hlayout, ending, pieces, hending, hpieces, heq⟩ := h
  exact ⟨layout, hlayout, ending, pieces, hending, hpieces, hwords.trans heq⟩

theorem isLabelOf_label (d : Date) : IsLabelOf d d.label := by
  refine ⟨_, List.mem_cons_self, [], [d.weekdayName.toList, [','], [' '], d.monthName.toList, [' '],
    (Text.decimal d.day).toList, [','], [' '], (Text.decimal d.year).toList], .inl rfl, ?_, ?_⟩
  · exact .cons rfl (.cons rfl (.cons rfl (.cons rfl (.cons rfl (.cons
      ⟨_, .inl rfl, (List.append_nil _).symm⟩ (.cons rfl (.cons rfl (.cons rfl .nil))))))))
  · simp [Date.label]

end Labels

end SiteVisit.Calendar.DateLabel
