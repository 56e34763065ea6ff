import SiteVisit.Proofs.Text.Separated
import SiteVisit.Text.Path

namespace SiteVisit.Text

def room : List (List Char) → Nat
  | [] => 0
  | step :: rest => step.length + 1 + room rest

theorem room_append (steps more : List (List Char)) :
    room (steps ++ more) = room steps + room more := by
  induction steps with
  | nil => exact (Nat.zero_add _).symm
  | cons step rest ih =>
    rw [List.cons_append, room, room, ih]
    omega

theorem length_intercalate {steps : List (List Char)} (h : steps ≠ []) :
    (['/'].intercalate steps).length + 1 = room steps := by
  induction steps with
  | nil => exact (h rfl).elim
  | cons step rest ih =>
    by_cases hrest : rest = []
    · subst hrest
      simp [room, List.intercalate_singleton]
    · have := ih hrest
      rw [room]
      rw [List.intercalate_cons_of_ne_nil hrest]
      simp only [List.length_append, List.length_singleton]
      omega

theorem room_splitAt (cs : List Char) : room (splitAt '/' cs) = cs.length + 1 := by
  induction cs with
  | nil => rfl
  | cons c cs ih =>
    rw [splitAt]
    split
    · simp only [room, List.length_cons, List.length_nil, ih]
      omega
    · split
      · next piece pieces hsplit =>
        rw [hsplit] at ih
        simp only [room, List.length_cons] at ih ⊢
        omega
      · next hsplit =>
        rw [hsplit] at ih
        simp [room] at ih

theorem room_filter_le (keep : List Char → Bool) (steps : List (List Char)) :
    room (steps.filter keep) ≤ room steps := by
  induction steps with
  | nil => exact Nat.le_refl _
  | cons step rest ih =>
    rw [List.filter_cons]
    split <;> simp only [room] <;> omega

theorem room_realSteps_le (cs : List Char) : room (realSteps cs) ≤ cs.length + 1 := by
  rw [← room_splitAt cs]
  exact room_filter_le _ _

theorem exists_rest (cs : List Char) :
    ∃ rest, realSteps cs = realSteps rest ∧ (root cs).length + rest.length = cs.length := by
  have hslash (rest : List Char) : realSteps ('/' :: rest) = realSteps rest := by
    simp [realSteps, splitAt]
  fun_cases root cs with
  | case1 rest => exact ⟨'/' :: '/' :: rest, hslash _, by simp; omega⟩
  | case2 rest => exact ⟨rest, by rw [hslash, hslash], by simp; omega⟩
  | case3 rest => exact ⟨rest, hslash rest, by simp; omega⟩
  | case4 => exact ⟨cs, rfl, by simp⟩

theorem length_dropLast_lt {cs : List Char} (h : realSteps cs ≠ []) :
    (root cs ++ ['/'].intercalate (realSteps cs).dropLast).length < cs.length := by
  obtain ⟨rest, hsteps, hlength⟩ := exists_rest cs
  have hroom := room_realSteps_le rest
  have hsplit := List.dropLast_concat_getLast h
  have hlast : (realSteps cs).getLast h ≠ [] := by
    have hmem := List.getLast_mem h
    intro hnil
    rw [hnil] at hmem
    simp [realSteps] at hmem
  have hpos := List.length_pos_iff.mpr hlast
  rw [← hsteps, ← hsplit, room_append] at hroom
  simp only [room] at hroom
  rw [List.length_append]
  by_cases hfirst : (realSteps cs).dropLast = []
  · rw [hfirst] at hroom ⊢
    simp at hroom ⊢
    omega
  · have hjoined := length_intercalate hfirst
    omega

theorem parentPath_above {s : String} (h : isStanding s = false) :
    parentPath s ≠ s ∧ (s ++ "/").isPrefixOf (parentPath s) = false := by
  have hsteps : realSteps s.toList ≠ [] := by
    intro hnil
    rw [isStanding, hnil] at h
    cases h
  have hlt := length_dropLast_lt hsteps
  have hparent : parentPath s = "." ∨ (parentPath s).toList.length < s.toList.length := by
    rw [parentPath]
    split
    · exact .inl rfl
    · exact .inr (by rwa [String.toList_ofList])
  have hle : (parentPath s).toList.length ≤ s.toList.length := by
    rcases hparent with hdot | hlt'
    · rw [hdot]
      exact Nat.lt_of_le_of_lt (Nat.zero_le _) hlt
    · exact Nat.le_of_lt hlt'
  constructor
  · intro heq
    rcases hparent with hdot | hlt'
    · rw [← heq, hdot] at h
      exact absurd h (by decide)
    · rw [heq] at hlt'
      exact Nat.lt_irrefl _ hlt'
  · rw [Bool.eq_false_iff]
    intro hprefix
    have hlength := (String.startsWith_string_iff.mp hprefix).length_le
    rw [String.toList_append, List.length_append] at hlength
    exact absurd hlength (by simp; omega)

section Name

variable {cs : List Char}

structure IsName (cs : List Char) : Prop where
  ne_nil : cs ≠ []
  ne_dot : cs ≠ ['.']
  ne_dots : cs ≠ ['.', '.']
  no_slash : '/' ∉ cs

theorem IsName.realSteps (h : IsName cs) : realSteps cs = [cs] := by
  rw [Text.realSteps, splitAt_of_notMem h.no_slash]
  simp [h.ne_nil, h.ne_dot]

theorem IsName.root (h : IsName cs) : root cs = [] := by
  unfold Text.root
  split
  · exact absurd List.mem_cons_self h.no_slash
  · exact absurd List.mem_cons_self h.no_slash
  · exact absurd List.mem_cons_self h.no_slash
  · rfl

theorem IsName.path (h : IsName cs) : path (String.ofList cs) = String.ofList cs := by
  have hchars : pathChars cs = cs := by
    rw [pathChars, h.root, h.realSteps]
    cases cs with
    | nil => exact (h.ne_nil rfl).elim
    | cons c cs => simp
  rw [Text.path, String.toList_ofList, hchars]

theorem IsName.stations (h : IsName cs) : stations (String.ofList cs) = [String.ofList cs] := by
  have hstep : stepFrom false [] cs = [cs] := if_pos (by simpa using h.ne_dots)
  rw [Text.stations, String.toList_ofList, h.root, h.realSteps]
  cases cs with
  | nil => exact (h.ne_nil rfl).elim
  | cons c cs => simp [stationsFrom, hstep]

end Name

end SiteVisit.Text
