import SiteVisit.Proofs.Calendar.Walls

namespace SiteVisit.Calendar.IsoText

open Text (asciiDigit? padded places toList_padded)

section Digits

variable {width n : Nat} {c : Char}

theorem isDigit_of_mem_padded (hwidth : 0 < width) (hn : n < 10 ^ width)
    (h : c ∈ (padded width n).toList) : (asciiDigit? c).isSome := by
  rw [toList_padded hwidth hn] at h
  clear hn hwidth
  induction width with
  | zero => cases h
  | succ width ih =>
    rcases List.mem_cons.mp h with rfl | h
    · rw [Text.asciiDigit?_digitChar (Nat.mod_lt _ (by omega))]
      rfl
    · exact ih h

theorem exists_cons_padded (hwidth : 0 < width) (hn : n < 10 ^ width) :
    ∃ c rest, (padded width n).toList = c :: rest ∧ (asciiDigit? c).isSome := by
  obtain ⟨width, rfl⟩ : ∃ k, width = k + 1 := ⟨width - 1, by omega⟩
  have hplaces : (padded (width + 1) n).toList = _ :: places width n := toList_padded hwidth hn
  exact ⟨_, _, hplaces, isDigit_of_mem_padded hwidth hn (by rw [hplaces]; exact .head _)⟩

theorem length_padded (hwidth : 0 < width) (hn : n < 10 ^ width) :
    (padded width n).toList.length = width := by
  rw [toList_padded hwidth hn, Text.length_places]

theorem ne_of_isDigit {mark : Char} (h : (asciiDigit? c).isSome) (hmark : asciiDigit? mark = none) :
    c ≠ mark := by
  rintro rfl
  rw [hmark] at h
  cases h

end Digits

section Day

variable (d : Date)

def dateChars : List Char :=
  (padded 4 d.year).toList ++ '-' :: ((padded 2 d.month).toList ++ '-' :: (padded 2 d.day).toList)

theorem length_dateChars : (dateChars d).length = 10 := by
  have hyear := d.year_range
  have hmonth := d.month_range
  simp only [dateChars, List.length_append, List.length_cons,
    length_padded (by decide : 0 < 4) (by omega : d.year < 10 ^ 4),
    length_padded (by decide : 0 < 2) (by omega : d.month < 10 ^ 2),
    length_padded (by decide : 0 < 2) d.day_lt_hundred]

theorem date?_dateChars : date? (dateChars d) = some d := by
  have hyear := d.year_range
  have hmonth := d.month_range
  have hyears := digits?_padded (by decide : 0 < 4) (by omega : d.year < 10 ^ 4)
  have hmonths := digits?_padded (by decide : 0 < 2) (by omega : d.month < 10 ^ 2)
  have hdays := digits?_padded (by decide : 0 < 2) d.day_lt_hundred []
  rw [List.append_nil] at hdays
  have hparts := Date.exists_ofParts? d.year_range d.month_range d.day_range
  obtain ⟨c, rest, hfirst, hdigit⟩ :=
    exists_cons_padded (by decide : 0 < 2) (by omega : d.month < 10 ^ 2)
  simp only [dateChars, date?, hyears, Option.bind_eq_bind, Option.bind_some, List.head?_cons,
    beq_self_eq_true, if_true, List.drop_succ_cons, List.drop_zero]
  split
  · next heq =>
    -- A month begins with a digit, and so it is no week.
    rw [hfirst, List.cons_append] at heq
    exact (ne_of_isDigit hdigit (by decide) (List.cons.inj heq).1).elim
  · simp only [hmonths, hyphen?, if_true, Option.bind_some, hdays, hparts]

theorem dateLength?_dateChars (mark : Char) (rest : List Char) :
    dateLength? (dateChars d ++ mark :: rest) = some 10 := by
  have hyear := d.year_range
  have hmonth := d.month_range
  have hlength := length_dateChars d
  have hyears := length_padded (by decide : 0 < 4) (by omega : d.year < 10 ^ 4)
  obtain ⟨c, more, hfirst, hdigit⟩ :=
    exists_cons_padded (by decide : 0 < 2) (by omega : d.month < 10 ^ 2)
  have hfourth : (dateChars d ++ mark :: rest)[4]? = some '-' := by
    rw [dateChars, List.append_assoc, List.getElem?_append_right (by omega), hyears]
    rfl
  have hfifth : (dateChars d ++ mark :: rest)[5]? = some c := by
    rw [dateChars, List.append_assoc, List.getElem?_append_right (by omega), hyears, hfirst]
    rfl
  have hweek : (c == 'W') = false := beq_false_of_ne (ne_of_isDigit hdigit (by decide))
  have hlong : (dateChars d ++ mark :: rest).length = 11 + rest.length := by
    rw [List.length_append, hlength, List.length_cons]
    omega
  have hseven : (11 + rest.length == 7) = false := beq_false_of_ne (by omega)
  have hshort : ¬ (11 + rest.length < 7) := by omega
  simp only [dateLength?, hlong, hshort, hseven, hfourth, hfifth, beq_self_eq_true, if_true,
    Bool.false_eq_true, if_false, Option.some_beq_some, hweek]

end Day

section Clock

variable (w : Wall)

def clockChars : List Char :=
  (padded 2 w.hour).toList ++ ':' :: ((padded 2 w.minute).toList ++
    ':' :: ((padded 2 w.second).toList ++
      if w.micro == 0 then [] else '.' :: (padded 6 w.micro).toList))

theorem fraction?_padded {n : Nat} (h : n < 1000000) :
    fraction? (padded 6 n).toList = some (n, true) := by
  have hdigits := digits?_padded (by decide : 0 < 6) h []
  rw [List.append_nil] at hdigits
  simp [fraction?, length_padded (by decide : 0 < 6) h, hdigits]

theorem fields?_hour (c : Clock) {n : Nat} (hn : n < 100) {rest : List Char} (hrest : rest ≠ []) :
    fields? true c 3 ((padded 2 n).toList ++ ':' :: rest) =
      fields? true { c with hour := n } 2 rest := by
  obtain ⟨first, more, rfl⟩ := List.exists_cons_of_ne_nil hrest
  -- Whatever field it is, its two digits come first.
  change (digits? 2 _ >>= _) = _
  rw [digits?_padded (by omega) hn]
  rfl

theorem fields?_minute (c : Clock) {n : Nat} (hn : n < 100) {rest : List Char} (hrest : rest ≠ []) :
    fields? true c 2 ((padded 2 n).toList ++ ':' :: rest) =
      fields? true { c with minute := n } 1 rest := by
  obtain ⟨first, more, rfl⟩ := List.exists_cons_of_ne_nil hrest
  change (digits? 2 _ >>= _) = _
  rw [digits?_padded (by omega) hn]
  rfl

theorem fields?_second (c : Clock) {n : Nat} (hn : n < 100) :
    fields? true c 1 (padded 2 n).toList = some ({ c with second := n }, true) := by
  have hdigits := digits?_padded (by decide : 0 < 2) hn []
  rw [List.append_nil] at hdigits
  change (digits? 2 _ >>= _) = _
  rw [hdigits]
  rfl

theorem fields?_second_fraction (c : Clock) {n micro : Nat} (hn : n < 100)
    (hmicro : micro < 1000000) :
    fields? true c 1 ((padded 2 n).toList ++ '.' :: (padded 6 micro).toList) =
      some ({ c with second := n, micro := micro }, true) := by
  obtain ⟨first, more, hplaces, -⟩ := exists_cons_padded (by decide : 0 < 6) hmicro
  have hfraction := fraction?_padded hmicro
  rw [hplaces] at hfraction ⊢
  change (digits? 2 _ >>= _) = _
  rw [digits?_padded (by omega) hn]
  change (fraction? (first :: more)).map _ = _
  rw [hfraction]
  rfl

theorem clock?_clockChars :
    clock? (clockChars w) = some (⟨w.hour, w.minute, w.second, w.micro⟩, true) := by
  have hclock := w.clock_range
  rw [clock?, clockChars, fields?_hour _ (by omega) (by simp)]
  obtain ⟨first, more, hsecond, -⟩ :=
    exists_cons_padded (by decide : 0 < 2) (by omega : w.second < 10 ^ 2)
  rw [fields?_minute _ (by omega) (by simp [hsecond])]
  split
  · next hmicro => rw [List.append_nil, fields?_second _ (by omega), eq_of_beq hmicro]
  · rw [fields?_second_fraction _ (by omega) hclock.2.2.2]

theorem not_isOffsetMark_of_mem {c : Char} (h : c ∈ clockChars w) : (!isOffsetMark c) = true := by
  have hclock := w.clock_range
  have hdigit (hc : (asciiDigit? c).isSome) : (!isOffsetMark c) = true := by
    have hplus := ne_of_isDigit hc (by decide : asciiDigit? '+' = none)
    have hminus := ne_of_isDigit hc (by decide : asciiDigit? '-' = none)
    have hletter := ne_of_isDigit hc (by decide : asciiDigit? 'Z' = none)
    simp [isOffsetMark, hplus, hminus, hletter]
  have hpadded {width n : Nat} (hwidth : 0 < width) (hn : n < 10 ^ width)
      (hc : c ∈ (padded width n).toList) : (!isOffsetMark c) = true :=
    hdigit (isDigit_of_mem_padded hwidth hn hc)
  simp only [clockChars, List.mem_append, List.mem_cons] at h
  rcases h with h | rfl | h | rfl | h | h
  · exact hpadded (by omega) (by omega) h
  · decide
  · exact hpadded (by omega) (by omega) h
  · decide
  · exact hpadded (by omega) (by omega) h
  · split at h
    · cases h
    · rcases List.mem_cons.mp h with rfl | h
      · decide
      · exact hpadded (by omega) (by omega) h

end Clock

theorem time?_clockChars (w : Wall) : time? (clockChars w ++ "+00:00".toList) =
    some (⟨w.hour, w.minute, w.second, w.micro⟩, .fixed 0) := by
  have hnone : ∀ c ∈ clockChars w, (!isOffsetMark c) = true := fun _ => not_isOffsetMark_of_mem w
  have hfront : (clockChars w ++ "+00:00".toList).takeWhile (!isOffsetMark ·) = clockChars w := by
    rw [List.takeWhile_append_of_pos hnone]
    simp [isOffsetMark]
  have hback : (clockChars w ++ "+00:00".toList).dropWhile (!isOffsetMark ·) =
      '+' :: "00:00".toList := by
    rw [List.dropWhile_append_of_pos hnone]
    rfl
  have hoffset : offset? false "00:00".toList = some 0 := by decide
  simp only [time?, hfront, hback, clock?_clockChars]
  rw [show ('+' == '-') = false from rfl, hoffset]
  rfl

theorem toList_ofWall (w : Wall) :
    (Stamp.ofWall w).toList = dateChars w.date ++ 'T' :: (clockChars w ++ "+00:00".toList) := by
  rw [Stamp.toList_ofWall]
  simp [dateChars, clockChars, Stamp.ending]

theorem parse_ofWall (w : Wall) : parse (Stamp.ofWall w) = some ⟨w, .fixed 0⟩ := by
  have hlength := length_dateChars w.date
  have htake (rest : List Char) : (dateChars w.date ++ rest).take 10 = dateChars w.date := by
    rw [← hlength, List.take_left]
  have hdrop (rest : List Char) : (dateChars w.date ++ rest).drop 10 = rest := by
    rw [← hlength, List.drop_left]
  have hparts : Wall.ofParts? w.date w.hour w.minute w.second w.micro = some w :=
    Wall.ofParts?_eq_some.mpr ⟨rfl, rfl, rfl, rfl, rfl⟩
  simp only [parse, parseChars, toList_ofWall, dateLength?_dateChars, Option.bind_eq_bind,
    Option.bind_some, htake, hdrop, date?_dateChars, time?_clockChars,
    hparts]
  rfl

end SiteVisit.Calendar.IsoText
