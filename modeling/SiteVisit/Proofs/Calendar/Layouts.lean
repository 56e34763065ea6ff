import Mathlib.Data.Bool.AllAny
import SiteVisit.Proofs.Calendar.Numerals
import SiteVisit.Proofs.Text.Letters

namespace SiteVisit.Calendar.DateLabel

open Text (Lexeme asciiLower digitsValue isDigit)

section Names

variable {names : List (List Char)} {a b name piece cs rest : List Char} {i : Nat}

def IsSpelling (name piece : List Char) : Prop := piece.map asciiLower = name.map asciiLower

instance (name piece : List Char) : Decidable (IsSpelling name piece) :=
  inferInstanceAs (Decidable (_ = _))

theorem word?_eq_some {w : List Char} :
    word? w cs = some rest ↔ ∃ piece, IsSpelling w piece ∧ cs = piece ++ rest := by
  induction w generalizing cs with
  | nil => simp [word?, IsSpelling, eq_comm]
  | cons l w ih =>
    cases cs with
    | nil =>
      simp only [word?, reduceCtorEq, false_iff, not_exists, not_and]
      intro piece hpiece hnil
      obtain ⟨rfl, -⟩ := List.append_eq_nil_iff.mp hnil.symm
      cases hpiece
    | cons c cs =>
      rw [word?]
      constructor
      · intro h
        split at h
        · next hc =>
          obtain ⟨piece, hpiece, rfl⟩ := ih.mp h
          refine ⟨c :: piece, ?_, rfl⟩
          rw [IsSpelling, List.map_cons, List.map_cons, hpiece, ← beq_iff_eq.mp hc]
        · cases h
      · rintro ⟨_ | ⟨d, piece⟩, hpiece, heq⟩
        · cases hpiece
        · obtain ⟨rfl, rfl⟩ := List.cons.inj heq
          obtain ⟨hd, hrest⟩ := List.cons.inj hpiece
          rw [if_pos (beq_iff_eq.mpr hd.symm)]
          exact ih.mpr ⟨piece, hrest, rfl⟩

theorem isPrefix_of_isSpelling {piece' rest' : List Char} (h : IsSpelling a piece)
    (h' : IsSpelling b piece') (heq : piece ++ rest = piece' ++ rest') :
    a.map asciiLower <+: b.map asciiLower ∨ b.map asciiLower <+: a.map asciiLower := by
  rw [← h, ← h']
  exact (List.prefix_or_prefix_of_prefix (heq ▸ List.prefix_append piece rest)
    (List.prefix_append piece' rest')).imp (·.map _) (·.map _)

def Unmistakable (names : List (List Char)) : Prop :=
  ∀ i j : Fin names.length,
    names[i].map asciiLower <+: names[j].map asciiLower → i = j

instance (names : List (List Char)) : Decidable (Unmistakable names) :=
  inferInstanceAs (Decidable (∀ i j : Fin names.length,
    names[i].map asciiLower <+: names[j].map asciiLower → i = j))

theorem exists_of_name?_eq_some (h : name? names cs = some (i, rest)) :
    ∃ name piece, names[i]? = some name ∧ IsSpelling name piece ∧ cs = piece ++ rest := by
  obtain ⟨⟨name, k⟩, hmem, hword⟩ := List.exists_of_findSome?_eq_some h
  obtain ⟨_, hword, heq⟩ := Option.map_eq_some_iff.mp hword
  cases heq
  obtain ⟨piece, hpiece, hcs⟩ := word?_eq_some.mp hword
  exact ⟨name, piece, List.mem_zipIdx_iff_getElem?.mp hmem, hpiece, hcs⟩

theorem name?_of_isSpelling (hnames : Unmistakable names) (hname : names[i]? = some name)
    (hpiece : IsSpelling name piece) (rest : List Char) :
    name? names (piece ++ rest) = some (i, rest) := by
  have hword : word? name (piece ++ rest) = some rest := word?_eq_some.mpr ⟨piece, hpiece, rfl⟩
  have hsome : (name? names (piece ++ rest)).isSome := by
    rw [name?, List.findSome?_isSome_iff]
    exact ⟨(name, i), List.mem_zipIdx_iff_getElem?.mpr hname, by simp [hword]⟩
  obtain ⟨⟨j, tail⟩, hj⟩ := Option.isSome_iff_exists.mp hsome
  obtain ⟨name', piece', hname', hpiece', hcs'⟩ := exists_of_name?_eq_some hj
  obtain ⟨hi, rfl⟩ := List.getElem?_eq_some_iff.mp hname
  obtain ⟨hj', rfl⟩ := List.getElem?_eq_some_iff.mp hname'
  obtain rfl : i = j := by
    rcases isPrefix_of_isSpelling hpiece hpiece' hcs' with h | h
    · exact congrArg Fin.val (hnames ⟨i, hi⟩ ⟨j, hj'⟩ h)
    · exact (congrArg Fin.val (hnames ⟨j, hj'⟩ ⟨i, hi⟩ h)).symm
  have hlength : piece.length = piece'.length := by
    simpa using congrArg List.length (hpiece.trans hpiece'.symm)
  rw [hj, (List.append_inj hcs' hlength).2]

theorem unmistakable_weekdays : Unmistakable (fullNames weekdayNames) := by decide

theorem unmistakable_months : Unmistakable (fullNames monthNames) := by decide

theorem unmistakable_shortMonths : Unmistakable (shortNames monthNames) := by decide

theorem ofChar_asciiLower (c : Char) : Lexeme.ofChar (asciiLower c) = Lexeme.ofChar c :=
  Text.apply_asciiLower (by decide) c

theorem IsSpelling.is_word (h : IsSpelling name piece) (hname : Lexeme.word.Is name) :
    Lexeme.word.Is piece where
  nonempty hnil := by
    subst hnil
    exact hname.nonempty (List.map_eq_nil_iff.mp h.symm)
  ofChar_eq c hc := by
    obtain ⟨b, hb, heq⟩ := List.mem_map.mp (h ▸ List.mem_map_of_mem hc)
    rw [← ofChar_asciiLower, ← heq, ofChar_asciiLower, hname.ofChar_eq b hb]
  single m hm := by cases hm

theorem is_word_of_mem
    (hmem : name ∈ fullNames weekdayNames ++ fullNames monthNames ++ shortNames monthNames) :
    Lexeme.word.Is name := by
  have hall : ∀ name ∈ fullNames weekdayNames ++ fullNames monthNames ++ shortNames monthNames,
      name ≠ [] ∧ name.all (Lexeme.ofChar · = .word) := by decide
  obtain ⟨hne, hword⟩ := hall name hmem
  exact ⟨hne, List.all_iff_forall_prop.mp hword, fun m hm => by cases hm⟩

def NamesMonth (i : Nat) (piece : List Char) : Prop :=
  ∃ name, ((fullNames monthNames)[i]? = some name ∨ (shortNames monthNames)[i]? = some name) ∧
    IsSpelling name piece

theorem NamesMonth.short (h : NamesMonth i piece) :
    ((shortNames monthNames).map (List.map asciiLower))[i]? =
      some ((piece.map asciiLower).take 3) := by
  obtain ⟨name, hname, hpiece⟩ := h
  rw [hpiece, ← List.map_take, List.getElem?_map]
  simp only [fullNames, shortNames, List.getElem?_map, Option.map_eq_some_iff] at hname ⊢
  rcases hname with ⟨month, hmonth, rfl⟩ | ⟨month, hmonth, rfl⟩
  · exact ⟨_, ⟨month, hmonth, rfl⟩, rfl⟩
  · exact ⟨_, ⟨month, hmonth, rfl⟩, by rw [List.take_take, Nat.min_self]⟩

theorem NamesMonth.unique {j : Nat} (h : NamesMonth i piece) (h' : NamesMonth j piece) : i = j := by
  have hnodup : ((shortNames monthNames).map (List.map asciiLower)).Nodup := by decide
  obtain ⟨hi, -⟩ := List.getElem?_eq_some_iff.mp h.short
  exact (List.getElem?_inj hi hnodup).mp (h.short.trans h'.short.symm)

theorem NamesMonth.is_word (h : NamesMonth i piece) : Lexeme.word.Is piece := by
  obtain ⟨name, hname, hpiece⟩ := h
  refine hpiece.is_word (is_word_of_mem ?_)
  rcases hname with hname | hname
  · exact List.mem_append_left _ (List.mem_append_right _ (List.mem_of_getElem? hname))
  · exact List.mem_append_right _ (List.mem_of_getElem? hname)

end Names

section Parts

variable {p : Part} {ps : List Part} {f g : Found} {piece cs rest : List Char}

def Part.lexeme : Part → Lexeme
  | .weekday | .monthName | .shortMonthName => .word
  | .month | .day | .year => .number
  | .mark c => .mark c

def Part.Says (f : Found) (piece : List Char) (g : Found) : Part → Prop
  | .weekday | .mark _ => g = f
  | .monthName | .shortMonthName => ∃ i, NamesMonth i piece ∧ g = { f with month := i + 1 }
  | .month => g = { f with month := digitsValue piece }
  | .day => g = { f with day := digitsValue piece }
  | .year => g = { f with year := digitsValue piece }

def marks : List Char := [' ', ',', '/', '-']

theorem is_mark_of_mem {c : Char} (h : c ∈ marks) : (Lexeme.mark c).Is [c] := by
  have hall : ∀ c ∈ marks, Lexeme.ofChar c = .mark c :=
    List.all_iff_forall_prop.mp (by decide)
  exact .mark (hall c h)

theorem exists_of_mem_readings (hmark : ∀ c, p = .mark c → c ∈ marks)
    (h : (g, rest) ∈ p.readings f cs) :
    (∃ piece, cs = piece ++ rest ∧ p.lexeme.Is piece ∧ p.Says f piece g) ∨
      p = .day ∧ ∃ c, cs = ' ' :: c :: rest ∧ isDigit c = true := by
  cases p with
  | weekday =>
    obtain ⟨⟨i, tail⟩, hfound, heq⟩ := Option.map_eq_some_iff.mp (Option.mem_toList.mp h)
    cases heq
    obtain ⟨name, piece, hname, hpiece, rfl⟩ := exists_of_name?_eq_some hfound
    have hmem : name ∈ fullNames weekdayNames := List.mem_of_getElem? hname
    exact .inl ⟨piece, rfl, hpiece.is_word (is_word_of_mem (by simp [hmem])), rfl⟩
  | monthName =>
    obtain ⟨⟨i, tail⟩, hfound, heq⟩ := Option.map_eq_some_iff.mp (Option.mem_toList.mp h)
    cases heq
    obtain ⟨name, piece, hname, hpiece, rfl⟩ := exists_of_name?_eq_some hfound
    have hmonth : NamesMonth i piece := ⟨name, .inl hname, hpiece⟩
    exact .inl ⟨piece, rfl, hmonth.is_word, i, hmonth, rfl⟩
  | shortMonthName =>
    obtain ⟨⟨i, tail⟩, hfound, heq⟩ := Option.map_eq_some_iff.mp (Option.mem_toList.mp h)
    cases heq
    obtain ⟨name, piece, hname, hpiece, rfl⟩ := exists_of_name?_eq_some hfound
    have hmonth : NamesMonth i piece := ⟨name, .inr hname, hpiece⟩
    exact .inl ⟨piece, rfl, hmonth.is_word, i, hmonth, rfl⟩
  | month =>
    obtain ⟨⟨n, tail⟩, hn, heq⟩ := List.mem_map.mp h
    cases heq
    obtain ⟨piece, hpiece, rfl⟩ := mem_monthReadings.mp hn
    exact .inl ⟨piece, rfl, hpiece.isNumber.is_number, by rw [Part.Says, hpiece.isNumber.value]⟩
  | day =>
    obtain ⟨⟨n, tail⟩, hn, heq⟩ := List.mem_map.mp h
    cases heq
    obtain ⟨piece, hpiece, rfl⟩ := mem_dayReadings.mp hn
    -- A space in front of the one digit of a day is no part of its piece.
    rcases hpiece.isNumber with hnumber | ⟨c, rfl, hc⟩
    · exact .inl ⟨piece, rfl, hnumber.is_number, by rw [Part.Says, hnumber.value]⟩
    · exact .inr ⟨rfl, c, rfl, hc⟩
  | year =>
    obtain ⟨⟨n, tail⟩, hn, heq⟩ := Option.map_eq_some_iff.mp (Option.mem_toList.mp h)
    cases heq
    obtain ⟨piece, hpiece, -, rfl⟩ := year?_eq_some.mp hn
    exact .inl ⟨piece, rfl, hpiece.is_number, by rw [Part.Says, hpiece.value]⟩
  | mark m =>
    cases cs with
    | nil => cases h
    | cons c cs =>
      obtain ⟨hc, h⟩ := List.mem_ite_nil_right.mp h
      cases List.mem_singleton.mp h
      obtain rfl := beq_iff_eq.mp hc
      exact .inl ⟨[c], rfl, is_mark_of_mem (hmark c rfl), rfl⟩

inductive Says : Found → List Part → List (List Char) → Found → Prop
  | nil (f : Found) : Says f [] [] f
  | cons {f g h : Found} {p : Part} {ps : List Part} {piece : List Char}
    {pieces : List (List Char)} (hp : p.Says f piece g) (hps : Says g ps pieces h) :
    Says f (p :: ps) (piece :: pieces) h

def lexemesOf : List Part → List (List Lexeme)
  | [] => [[]]
  | p :: ps => (lexemesOf ps).flatMap fun ks =>
    (p.lexeme :: ks) :: if p = .day then [.mark ' ' :: .number :: ks] else []

theorem exists_of_readParts? (hmarks : ∀ c, .mark c ∈ ps → c ∈ marks)
    (h : readParts? f ps cs = some g) : ∃ ks ∈ lexemesOf ps, ∃ pieces,
      List.Forall₂ Lexeme.Is ks pieces ∧ pieces.flatten = cs ∧
        (ks = ps.map Part.lexeme → Says f ps pieces g) := by
  induction ps generalizing f cs with
  | nil =>
    obtain ⟨hcs, heq⟩ := Option.ite_none_right_eq_some.mp h
    cases heq
    exact ⟨[], List.mem_singleton_self _, [], .nil, (List.isEmpty_iff.mp hcs).symm, fun _ => .nil _⟩
  | cons p ps ih =>
    obtain ⟨⟨f', rest⟩, hmem, hread⟩ := List.exists_of_findSome?_eq_some h
    obtain ⟨ks, hks, pieces, hpieces, rfl, hmeans⟩ :=
      ih (fun c hc => hmarks c (List.mem_cons_of_mem p hc)) hread
    rcases exists_of_mem_readings (fun c hc => hmarks c (hc ▸ List.mem_cons_self)) hmem with
      ⟨piece, rfl, hpiece, hp⟩ | ⟨rfl, c, rfl, hc⟩
    · refine ⟨p.lexeme :: ks, List.mem_flatMap.mpr ⟨ks, hks, List.mem_cons_self⟩,
        piece :: pieces, .cons hpiece hpieces, rfl, fun heq => .cons hp (hmeans ?_)⟩
      exact (List.cons.inj heq).2
    · refine ⟨.mark ' ' :: .number :: ks, List.mem_flatMap.mpr ⟨ks, hks, ?_⟩,
        [' '] :: [c] :: pieces, ?_, rfl, fun heq => ?_⟩
      · exact List.mem_cons_of_mem _ (List.mem_singleton_self _)
      · exact .cons (is_mark_of_mem List.mem_cons_self)
          (.cons (.number (List.cons_ne_nil c []) (by simpa using hc)) hpieces)
      · cases heq

def Part.full : Part → Part
  | .shortMonthName => .monthName
  | p => p

theorem Part.says_full (p : Part) (f g : Found) (piece : List Char) :
    p.full.Says f piece g ↔ p.Says f piece g := by
  cases p <;> rfl

theorem Says.of_full {qs : List Part} {pieces : List (List Char)} (h : Says f ps pieces g)
    (hfull : ps.map Part.full = qs.map Part.full) : Says f qs pieces g := by
  induction h generalizing qs with
  | nil f =>
    obtain rfl := List.map_eq_nil_iff.mp hfull.symm
    exact .nil f
  | cons hp hps ih =>
    obtain ⟨q, qs, rfl, hq, hqs⟩ := List.map_eq_cons_iff.mp hfull.symm
    exact .cons ((q.says_full _ _ _).mp (hq ▸ (Part.says_full _ _ _ _).mpr hp)) (ih hqs.symm)

theorem marks_of_mem_layouts {layout : List Part} (h : layout ∈ layouts) {c : Char}
    (hc : .mark c ∈ layout) : c ∈ marks := by
  have hall : ∀ layout ∈ layouts, ∀ p ∈ layout,
      p.lexeme ∈ Lexeme.word :: .number :: marks.map .mark := by decide
  simpa [Part.lexeme] using hall layout h _ hc

theorem map_lexeme_mem_lexemesOf (ps : List Part) : ps.map Part.lexeme ∈ lexemesOf ps := by
  induction ps with
  | nil => exact List.mem_singleton_self _
  | cons p ps ih => exact List.mem_flatMap.mpr ⟨_, ih, List.mem_cons_self⟩

theorem apart_of_mem_layouts :
    ∀ layout ∈ layouts, ∀ ks ∈ lexemesOf layout, Lexeme.Apart ks := by decide

/-- Layouts are told apart by their pieces, except for those that only differ in how long the names
of the months are. -/
theorem layouts_apart : ∀ layout ∈ layouts, ∀ layout' ∈ layouts,
    layout.map Part.lexeme ∈ lexemesOf layout' →
      layout.map Part.lexeme = layout'.map Part.lexeme ∧
        layout'.map Part.full = layout.map Part.full := by decide

theorem says_of_readParts? {layout layout' : List Part} {pieces : List (List Char)}
    (hlayout : layout ∈ layouts) (hlayout' : layout' ∈ layouts)
    (hpieces : List.Forall₂ Lexeme.Is (layout.map Part.lexeme) pieces)
    (hread : readParts? f layout' pieces.flatten = some g) : Says f layout pieces g := by
  obtain ⟨ks, hks, pieces', hpieces', heq, hmeans⟩ :=
    exists_of_readParts? (fun _ => marks_of_mem_layouts hlayout') hread
  obtain ⟨rfl, rfl⟩ := Lexeme.pieces_unique hpieces'
    (apart_of_mem_layouts layout' hlayout' ks hks) hpieces
    (apart_of_mem_layouts layout hlayout _ (map_lexeme_mem_lexemesOf layout)) heq
  obtain ⟨hsame, hfull⟩ := layouts_apart layout hlayout layout' hlayout' hks
  exact (hmeans hsame).of_full hfull

end Parts

end SiteVisit.Calendar.DateLabel
