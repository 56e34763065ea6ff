import SiteVisit.Proofs.Text.Blank
import SiteVisit.Proofs.Text.Separated

namespace SiteVisit.Text

def words (cs : List Char) : List (List Char) := (cs.splitOnP isBlank).filter fun w => !w.isEmpty

section Words

variable {c : Char} {cs ds : List Char}

theorem words_append_cons (cs ds : List Char) (hc : isBlank c = true) :
    words (cs ++ c :: ds) = words cs ++ words ds := by
  rw [words, List.splitOnP_append_cons cs ds hc, List.filter_append]
  rfl

theorem words_cons (cs : List Char) (hc : isBlank c = true) : words (c :: cs) = words cs :=
  words_append_cons [] cs hc

theorem words_of_solid (h : ∀ c ∈ cs, isBlank c = false) (hne : cs ≠ []) : words cs = [cs] := by
  rw [words, List.splitOnP_eq_singleton h]
  simp [hne]

theorem words_of_blank (h : ∀ c ∈ cs, isBlank c = true) : words cs = [] := by
  induction cs with
  | nil => rfl
  | cons c cs ih =>
    obtain ⟨hc, hcs⟩ := List.forall_mem_cons.mp h
    rw [words_cons cs hc, ih hcs]

theorem words_blank_append (h : ∀ c ∈ cs, isBlank c = true) (ds : List Char) :
    words (cs ++ ds) = words ds := by
  induction cs with
  | nil => rfl
  | cons c cs ih =>
    obtain ⟨hc, hcs⟩ := List.forall_mem_cons.mp h
    rw [List.cons_append, words_cons _ hc, ih hcs]

theorem words_append_blank (cs : List Char) (h : ∀ c ∈ ds, isBlank c = true) :
    words (cs ++ ds) = words cs := by
  cases ds with
  | nil => rw [List.append_nil]
  | cons c ds =>
    obtain ⟨hc, hds⟩ := List.forall_mem_cons.mp h
    rw [words_append_cons cs ds hc, words_of_blank hds, List.append_nil]

theorem flatten_words (cs : List Char) : (words cs).flatten = cs.filter fun c => !isBlank c := by
  rw [words, List.flatten_filter_not_isEmpty]
  induction cs with
  | nil => rfl
  | cons c cs ih =>
    rw [List.splitOnP_cons_eq_if_modifyHead, List.filter_cons, ← ih]
    by_cases hc : isBlank c = true
    · simp [hc]
    · obtain ⟨w, ws, hws⟩ := List.exists_cons_of_ne_nil (List.splitOnP_ne_nil isBlank cs)
      simp [hc, hws]

theorem words_ne_nil (hc : c ∈ cs) (h : isBlank c = false) : words cs ≠ [] := by
  intro hnil
  have hmem : c ∈ (words cs).flatten := by
    rw [flatten_words]
    exact List.mem_filter.mpr ⟨hc, by rw [h]; rfl⟩
  rw [hnil] at hmem
  cases hmem

theorem exists_trimChars (cs : List Char) : ∃ lead trail, cs = lead ++ trimChars cs ++ trail ∧
    (∀ c ∈ lead, isBlank c = true) ∧ ∀ c ∈ trail, isBlank c = true := by
  have hback (ds : List Char) : ds = ds.rdropWhile isBlank ++ ds.rtakeWhile isBlank := by
    rw [List.rdropWhile, List.rtakeWhile, ← List.reverse_append, List.takeWhile_append_dropWhile,
      List.reverse_reverse]
  refine ⟨cs.takeWhile isBlank, (cs.dropWhile isBlank).rtakeWhile isBlank, ?_, ?_, ?_⟩
  · rw [trimChars_eq, List.append_assoc, ← hback, List.takeWhile_append_dropWhile]
  · exact fun c hc => List.mem_takeWhile_imp hc
  · exact fun c hc => List.mem_rtakeWhile_imp hc

@[simp] theorem words_trimChars (cs : List Char) : words (trimChars cs) = words cs := by
  obtain ⟨lead, trail, hcs, hlead, htrail⟩ := exists_trimChars cs
  calc
    words (trimChars cs) = words (lead ++ trimChars cs ++ trail) := by
      rw [words_append_blank _ htrail, words_blank_append hlead]
    _ = words cs := congrArg words hcs.symm

theorem head_trimChars (cs : List Char) : ∀ c ∈ (trimChars cs).head?, isBlank c = false := by
  intro c hc
  have hstart : trimStart (trimChars cs) = trimChars cs :=
    trimStart_of_prefix (List.rdropWhile_prefix _ _) (List.dropWhile_idempotent _ _)
  obtain ⟨rest, hrest⟩ := List.head?_eq_some_iff.mp hc
  rw [hrest, trimStart, List.dropWhile_eq_self_iff] at hstart
  exact eq_false_of_ne_true (hstart (Nat.succ_pos _))

theorem last_trimChars (cs : List Char) : ∀ c ∈ (trimChars cs).getLast?, isBlank c = false := by
  intro c hc
  rw [trimChars_eq] at hc
  have hne : (cs.dropWhile isBlank).rdropWhile isBlank ≠ [] := by
    rintro heq
    rw [heq] at hc
    cases hc
  rw [← List.getLast_of_getLast?_eq_some hc]
  exact eq_false_of_ne_true (List.rdropWhile_last_not isBlank _ hne)

end Words

section Squeezed

variable {fill : Char}

theorem words_squeezeFrom (hfill : isBlank fill = true) (cs : List Char) :
    words (squeezeFrom fill true cs) = words cs ∧
      ∀ before, words (before ++ squeezeFrom fill false cs) = words (before ++ cs) := by
  induction cs with
  | nil => exact ⟨rfl, fun _ => rfl⟩
  | cons c cs ih =>
    obtain ⟨hrun, hword⟩ := ih
    by_cases hc : isBlank c = true
    · simp only [squeezeFrom, if_pos hc, if_true, Bool.false_eq_true, if_false]
      refine ⟨by rw [hrun, words_cons cs hc], fun before => ?_⟩
      rw [words_append_cons _ _ hfill, words_append_cons _ _ hc, hrun]
    · simp only [squeezeFrom, if_neg hc]
      refine ⟨hword [c], fun before => ?_⟩
      simpa using hword (before ++ [c])

theorem squeezeFrom_eq {cs : List Char} (hlast : ∀ c ∈ cs.getLast?, isBlank c = false) :
    squeezeFrom fill true cs = [fill].intercalate (words cs) ∧
      ∀ word, (∀ c ∈ word, isBlank c = false) → word ≠ [] →
        word ++ squeezeFrom fill false cs = [fill].intercalate (words (word ++ cs)) := by
  -- The second part carries the induction: a word that has begun goes on with the characters.
  induction cs with
  | nil =>
    refine ⟨rfl, fun word hword hne => ?_⟩
    rw [List.append_nil, words_of_solid hword hne]
    simp [squeezeFrom]
  | cons c cs ih =>
    have hrest : ∀ d ∈ cs.getLast?, isBlank d = false := by
      intro d hd
      refine hlast d ?_
      rw [List.getLast?_cons, Option.mem_def.mp hd]
      rfl
    obtain ⟨hrun, hmore⟩ := ih hrest
    by_cases hc : isBlank c = true
    · have hne : words cs ≠ [] := by
        cases hend : cs.getLast? with
        | none =>
          rw [List.getLast?_eq_none_iff.mp hend] at hlast
          exact absurd hc (by simpa using hlast c rfl)
        | some d => exact words_ne_nil (List.mem_of_getLast? hend) (hrest d hend)
      simp only [squeezeFrom, if_pos hc, if_true, Bool.false_eq_true, if_false]
      refine ⟨by rw [hrun, words_cons cs hc], fun word hword hnil => ?_⟩
      obtain ⟨w, ws, hws⟩ := List.exists_cons_of_ne_nil hne
      rw [words_append_cons _ _ hc, words_of_solid hword hnil, hrun, hws, List.singleton_append,
        List.intercalate_cons_cons]
      simp
    · have hsolid : isBlank c = false := eq_false_of_ne_true hc
      simp only [squeezeFrom, if_neg hc]
      refine ⟨hmore [c] (by simpa using hsolid) (List.cons_ne_nil _ _), fun word hword _ => ?_⟩
      have hlonger : ∀ d ∈ word ++ [c], isBlank d = false :=
        List.forall_mem_append.mpr ⟨hword, by simpa using hsolid⟩
      simpa using hmore (word ++ [c]) hlonger (by simp)

theorem squeeze_eq {cs : List Char} (hfirst : ∀ c ∈ cs.head?, isBlank c = false)
    (hlast : ∀ c ∈ cs.getLast?, isBlank c = false) :
    squeeze fill cs = [fill].intercalate (words cs) := by
  have hbegin : squeezeFrom fill false cs = squeezeFrom fill true cs := by
    cases cs with
    | nil => rfl
    | cons c cs => simp [squeezeFrom, hfirst c rfl]
  rw [squeeze, hbegin, (squeezeFrom_eq hlast).1]

end Squeezed

end SiteVisit.Text
