import SiteVisit.Proofs.Text.Units
import SiteVisit.Store.RoleText

namespace SiteVisit.RoleRun

theorem expect?_append (es rest : List Char) : expect? es (es ++ rest) = some rest := by
  induction es with
  | nil => rfl
  | cons e es ih => rw [List.cons_append, expect?, beq_self_eq_true, if_pos rfl, ih]

section Units

variable {rest : List Char}

theorem decodeUnits?_escape {c : Char} {u : Nat} (hc : c ≠ 'u') (hu : escaped? c = some u) :
    decodeUnits? ('\\' :: c :: rest) =
      (decodeUnits? rest).map fun (us, rest) => (u :: us, rest) := by
  rw [decodeUnits?.eq_3 _ _ (by rintro _ _ _ _ _ rfl; exact absurd rfl hc), hu]
  cases decodeUnits? rest <;> rfl

theorem hexUnit?_places {a b c d : Nat} (ha : a < 16) (hb : b < 16) (hc : c < 16) (hd : d < 16) :
    hexUnit? (Nat.digitChar a) (Nat.digitChar b) (Nat.digitChar c) (Nat.digitChar d) =
      some (16 * (16 * (16 * a + b) + c) + d) := by
  simp [hexUnit?, Text.hexDigit?_digitChar, ha, hb, hc, hd]

theorem decodeUnits?_hex {u : Nat} (hu : u < 0x10000) :
    decodeUnits? ('\\' :: 'u' :: Text.hex 4 u ++ rest) =
      (decodeUnits? rest).map fun (us, rest) => (u :: us, rest) := by
  have hvalue : 16 * (16 * (16 * (u / 16 / 16 / 16) + u / 16 / 16 % 16) + u / 16 % 16) + u % 16 =
      u := by omega
  rw [Text.hex_four hu]
  simp only [List.cons_append, List.nil_append]
  rw [decodeUnits?, hexUnit?_places (by omega) (by omega) (by omega) (by omega), hvalue]
  cases decodeUnits? rest <;> rfl

theorem decodeUnits?_plain {c : Char} (hquote : c ≠ '"') (hescape : c ≠ '\\') :
    decodeUnits? (c :: rest) =
      (decodeUnits? rest).map fun (us, rest) => (Text.units c ++ us, rest) := by
  rw [decodeUnits?.eq_4 _ _ (by simpa using hquote) (by simp [hescape]) (by simp [hescape])]
  cases decodeUnits? rest <;> rfl

theorem decodeUnits?_encodeUnit {u : Nat} (hu : u < 0x10000) :
    decodeUnits? (encodeUnit u ++ rest) =
      (decodeUnits? rest).map fun (us, rest) => (u :: us, rest) := by
  rw [encodeUnit]
  split_ifs with hquote hescape hfeed hreturn htab hback hform hplain
  · rw [beq_iff_eq.mp hquote]
    exact decodeUnits?_escape (by decide) rfl
  · rw [beq_iff_eq.mp hescape]
    exact decodeUnits?_escape (by decide) rfl
  · rw [beq_iff_eq.mp hfeed]
    exact decodeUnits?_escape (by decide) rfl
  · rw [beq_iff_eq.mp hreturn]
    exact decodeUnits?_escape (by decide) rfl
  · rw [beq_iff_eq.mp htab]
    exact decodeUnits?_escape (by decide) rfl
  · rw [beq_iff_eq.mp hback]
    exact decodeUnits?_escape (by decide) rfl
  · rw [beq_iff_eq.mp hform]
    exact decodeUnits?_escape (by decide) rfl
  · have hchar : (Char.ofNat u).toNat = u := by
      simp only [Bool.and_eq_true, decide_eq_true_eq] at hplain
      have hlast : '~'.toNat = 126 := rfl
      rw [Char.ofNat, dif_pos (.inl (by omega))]
      rfl
    have hunits : Text.units (Char.ofNat u) = [u] := by rw [Text.units, hchar, if_pos hu]
    have hne (c : Char) (h : ¬ (u == c.toNat) = true) : Char.ofNat u ≠ c := by
      rintro rfl
      exact h (beq_iff_eq.mpr hchar.symm)
    rw [List.singleton_append, decodeUnits?_plain (hne _ hquote) (hne _ hescape), hunits]
    rfl
  · exact decodeUnits?_hex hu

theorem decodeUnits?_flatMap {us : List Nat} (h : ∀ u ∈ us, u < 0x10000) :
    decodeUnits? (us.flatMap encodeUnit ++ '"' :: rest) = some (us, rest) := by
  induction us with
  | nil => rw [List.flatMap_nil, List.nil_append, decodeUnits?]
  | cons u us ih =>
    obtain ⟨hu, hus⟩ := List.forall_mem_cons.mp h
    rw [List.flatMap_cons, List.append_assoc, decodeUnits?_encodeUnit hu, ih hus]
    rfl

end Units

section Runs

variable (rest : List Char)

theorem decodeFlag?_encode (b : Bool) : decodeFlag? (encodeFlag b ++ rest) = some (b, rest) := by
  cases b <;> rfl

def nameMark (name : String) : List Char := (", \"" ++ name ++ "\": ").toList

theorem decodeNamed?_encode (name : String) (b : Bool) :
    decodeNamed? name (nameMark name ++ (encodeFlag b ++ rest)) = some (b, rest) := by
  rw [decodeNamed?, nameMark, expect?_append]
  exact decodeFlag?_encode rest b

def encodeStyle (s : Markup.Style) : List Char :=
  nameMark "bold" ++ encodeFlag s.bold ++ nameMark "italics" ++ encodeFlag s.italics ++
    nameMark "underline" ++ encodeFlag s.underline

theorem decodeStyle?_encode (s : Markup.Style) :
    decodeStyle? (encodeStyle s ++ rest) = some (s, rest) := by
  simp only [encodeStyle, List.append_assoc]
  rw [decodeStyle?, decodeNamed?_encode]
  simp only [Option.bind_eq_bind, Option.bind_some, decodeNamed?_encode]
  rfl

def textMark : List Char := "\x7b\"text\": \"".toList

theorem encodeRun_eq (r : RoleRun) : encodeRun r =
    "\x7b\"text\": ".toList ++ encodeText r.text.toList ++ r.style.elim [] encodeStyle ++ ['\x7d'] := by
  obtain ⟨text, style⟩ := r
  cases style with
  | none => rfl
  | some s => rfl

theorem encodeRun_eq_textMark (r : RoleRun) : encodeRun r =
    textMark ++ ((r.text.toList.flatMap Text.units).flatMap encodeUnit ++
      '"' :: (r.style.elim [] encodeStyle ++ ['\x7d'])) := by
  have hregroup (mark us style : List Char) :
      mark ++ ('"' :: us ++ ['"']) ++ style ++ ['\x7d'] =
        mark ++ ['"'] ++ (us ++ '"' :: (style ++ ['\x7d'])) := by
    simp only [List.append_assoc, List.cons_append, List.nil_append]
  have htext : "\x7b\"text\": ".toList ++ ['"'] = textMark := rfl
  rw [encodeRun_eq, encodeText, hregroup, htext]

theorem decodeRun?_encode (r : RoleRun) : decodeRun? (encodeRun r ++ rest) = some (r, rest) := by
  have hunits : ∀ u ∈ r.text.toList.flatMap Text.units, u < 0x10000 := by
    intro u hu
    obtain ⟨c, -, hu⟩ := List.mem_flatMap.mp hu
    exact Text.lt_of_mem_units hu
  have hwritten : encodeRun r ++ rest =
      textMark ++ ((r.text.toList.flatMap Text.units).flatMap encodeUnit ++
        '"' :: (r.style.elim [] encodeStyle ++ '\x7d' :: rest)) := by
    rw [encodeRun_eq_textMark]
    simp only [List.append_assoc, List.cons_append, List.nil_append]
  have hexpect (cs : List Char) : expect? "\x7b\"text\": \"".toList (textMark ++ cs) = some cs :=
    expect?_append textMark cs
  rw [hwritten, decodeRun?, hexpect]
  simp only [Option.bind_eq_bind, Option.bind_some, decodeUnits?_flatMap hunits,
    Text.ofUnits?_flatMap_units, String.ofList_toList]
  obtain ⟨text, style⟩ := r
  cases style with
  | none => rfl
  | some s =>
    have hopen : expect? ['\x7d'] (encodeStyle s ++ '\x7d' :: rest) = none := rfl
    simp only [Option.elim_some, hopen, decodeStyle?_encode, Option.bind_some]
    rfl

def encodeMore (runs : List RoleRun) : List Char := runs.flatMap fun r => ", ".toList ++ encodeRun r

theorem decodeMore?_encode {n : Nat} {runs : List RoleRun} (h : runs.length ≤ n) :
    decodeMore? n (encodeMore runs ++ [']']) = some runs := by
  induction runs generalizing n with
  | nil => exact decodeMore?.eq_1 n
  | cons r runs ih =>
    obtain ⟨n, rfl⟩ : ∃ k, n = k + 1 :=
      Nat.exists_eq_add_one.mpr (Nat.lt_of_lt_of_le (Nat.succ_pos _) h)
    have hmore : encodeMore (r :: runs) ++ [']'] =
        ',' :: ' ' :: (encodeRun r ++ (encodeMore runs ++ [']'])) := by
      rw [encodeMore, List.flatMap_cons, List.append_assoc, List.append_assoc]
      rfl
    rw [hmore, decodeMore?, decodeRun?_encode]
    simp only [Option.bind_eq_bind, Option.bind_some, ih (Nat.le_of_succ_le_succ h)]
    rfl

theorem length_encodeMore (runs : List RoleRun) : runs.length ≤ (encodeMore runs).length := by
  induction runs with
  | nil => exact Nat.le_refl 0
  | cons r runs ih =>
    rw [encodeMore, List.flatMap_cons, List.length_append, List.length_cons]
    rw [encodeMore] at ih
    have hcomma : 1 ≤ (", ".toList ++ encodeRun r).length := by
      rw [List.length_append]
      exact Nat.le_add_right_of_le (by decide)
    omega

theorem encodeRuns_cons (r : RoleRun) (runs : List RoleRun) :
    encodeRuns (r :: runs) = '[' :: (encodeRun r ++ (encodeMore runs ++ [']'])) := by
  have hjoin (first : RoleRun) (runs : List RoleRun) :
      ", ".toList.intercalate ((first :: runs).map encodeRun) = encodeRun first ++ encodeMore runs := by
    induction runs generalizing first with
    | nil =>
      rw [encodeMore, List.flatMap_nil, List.append_nil]
      exact List.intercalate_singleton
    | cons next runs ih =>
      rw [List.map_cons, List.intercalate_cons_of_ne_nil (by simp), ih, encodeMore, encodeMore,
        List.flatMap_cons]
      simp only [List.append_assoc]
  rw [encodeRuns, hjoin, List.cons_append, List.append_assoc]

end Runs

theorem decode?_encode (runs : List RoleRun) : decode? (encode runs) = some runs := by
  cases runs with
  | nil => rfl
  | cons r runs =>
    have hbound : runs.length ≤ (encodeMore runs ++ [']']).length := by
      rw [List.length_append]
      exact Nat.le_add_right_of_le (length_encodeMore runs)
    have hmore := decodeMore?_encode hbound
    have hopen : ∃ after, encodeRun r = '\x7b' :: after := by
      rw [encodeRun_eq_textMark]
      exact ⟨_, rfl⟩
    have hfirst := decodeRun?_encode (encodeMore runs ++ [']']) r
    rw [decode?, encode, String.toList_ofList, encodeRuns_cons]
    generalize encodeMore runs ++ [']'] = more at hbound hfirst hmore
    obtain ⟨after, hafter⟩ := hopen
    rw [hafter, List.cons_append] at hfirst ⊢
    -- a brace is not the bracket that closes an empty array
    change ((decodeRun? ('\x7b' :: (after ++ more))).bind fun first =>
      (decodeMore? first.2.length first.2).bind fun others => some (first.1 :: others)) =
        some (r :: runs)
    simp only [hfirst, hmore, Option.bind_some]

end SiteVisit.RoleRun
