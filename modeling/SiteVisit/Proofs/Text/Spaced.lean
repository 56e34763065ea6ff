import SiteVisit.Proofs.Text.Letters
import SiteVisit.Proofs.Text.Slug
import SiteVisit.Proofs.Text.Words

/-!
What a slug makes of the blanks in a text. Runs of blanks with a space among them are worth one
space, and those outside the words nothing. Any other blank is left out without a trace, so that the
words on both sides of it run together.
-/

namespace SiteVisit.Text

section Blanks

def blankCodes : List Nat :=
  List.range' 9 5 ++ List.range' 0x1c 5 ++ [0x85, 0xa0, 0x1680] ++ List.range' 0x2000 11 ++
    [0x2028, 0x2029, 0x202f, 0x205f, 0x3000]

theorem mem_blankCodes {c : Char} (h : isBlank c = true) : c.toNat ∈ blankCodes := by
  simp only [isBlank, Bool.or_eq_true, Bool.and_eq_true, decide_eq_true_eq, beq_iff_eq] at h
  simp only [blankCodes, List.mem_append, List.mem_range'_1, List.mem_cons, List.not_mem_nil,
    or_false]
  omega

theorem forall_of_isBlank {p : Char → Prop} (h : ∀ n ∈ blankCodes, p (Char.ofNat n)) {c : Char}
    (hc : isBlank c = true) : p c :=
  of_toNat_mem h (mem_blankCodes hc)

end Blanks

section Kept

variable {c d : Char} {cs : List Char}

def kept (c : Char) : List Char := (lower c).filter isSlugChar

theorem kept_space : kept ' ' = [' '] := by decide

theorem kept_of_isBlank (h : isBlank c = true) : c ≠ ' ' → kept c = [] := by
  refine forall_of_isBlank (p := fun c => c ≠ ' ' → kept c = []) ?_ h
  decide

theorem eq_space_of_mem_kept (h : ' ' ∈ kept c) : c = ' ' := by
  have hspace : StandsAlone ' ' := by decide +kernel
  have hlower : ' ' ∈ lower c := List.mem_of_mem_filter h
  rw [lower] at hlower
  split at hlower
  · exact absurd hlower (by decide)
  · have hc := hspace.eq_of_lowerChar (List.mem_singleton.mp hlower).symm
    rcases eq_of_asciiLower (by decide) hc with rfl | rfl
    · rfl
    · exact absurd hc (by decide)

theorem isBlank_of_mem_kept (hc : c ≠ ' ') (hd : d ∈ kept c) : isBlank d = false := by
  have hslug : isSlugChar d = true := (List.mem_filter.mp hd).2
  rw [← Bool.not_eq_true]
  intro hblank
  have hspace : d = ' ' :=
    forall_of_isBlank (p := fun d => isSlugChar d = true → d = ' ') (by decide) hblank hslug
  exact hc (eq_space_of_mem_kept (hspace ▸ hd))

def remains (cs : List Char) : List Char := cs.flatMap kept

theorem isBlank_of_mem_remains (hcs : ' ' ∉ cs) (hd : d ∈ remains cs) : isBlank d = false := by
  obtain ⟨c, hc, hd⟩ := List.mem_flatMap.mp hd
  exact isBlank_of_mem_kept (fun heq => hcs (heq ▸ hc)) hd

theorem hyphen_notMem_remains (cs : List Char) : '-' ∉ remains cs := by
  intro hmem
  obtain ⟨c, -, hc⟩ := List.mem_flatMap.mp hmem
  exact absurd (List.mem_filter.mp hc).2 (by decide)

def onlySpaces (cs : List Char) : List Char := cs.filter fun c => c == ' ' || !isBlank c

theorem remains_onlySpaces (cs : List Char) : remains (onlySpaces cs) = remains cs := by
  induction cs with
  | nil => rfl
  | cons c cs ih =>
    rw [onlySpaces, List.filter_cons]
    split
    · exact congrArg (kept c ++ ·) ih
    · next hc =>
      simp only [Bool.or_eq_true, beq_iff_eq, Bool.not_eq_true', not_or, Bool.not_eq_false] at hc
      rw [← onlySpaces, ih, remains, remains, List.flatMap_cons, kept_of_isBlank hc.2 hc.1,
        List.nil_append]

end Kept

section Slugs

theorem slugChars_eq_squeeze (cs : List Char) :
    slugChars cs = squeeze '-' (trimChars (remains cs)) := by
  rw [slugChars, List.filter_flatMap, remains]
  rfl

theorem slugChars_eq (cs : List Char) : slugChars cs = ['-'].intercalate (words (remains cs)) := by
  rw [slugChars_eq_squeeze, squeeze_eq (head_trimChars _) (last_trimChars _), words_trimChars]

theorem slug_eq_iff {s t : String} :
    slug s = slug t ↔ words (remains s.toList) = words (remains t.toList) := by
  have hsplit (cs : List Char) (hne : words (remains cs) ≠ []) :
      (['-'].intercalate (words (remains cs))).splitOn '-' = words (remains cs) :=
    List.splitOn_intercalate '-' (fun w hw hmem => hyphen_notMem_remains cs
      (List.mem_of_mem_filter (flatten_words _ ▸ List.mem_flatten.mpr ⟨w, hw, hmem⟩))) hne
  have hnil (cs : List Char) (hne : words (remains cs) ≠ []) :
      ['-'].intercalate (words (remains cs)) ≠ [] := by
    intro heq
    have hwords := hsplit cs hne
    rw [heq] at hwords
    have hmem : [] ∈ words (remains cs) := hwords ▸ List.mem_singleton_self _
    exact absurd (List.mem_filter.mp hmem).2 (by decide)
  rw [slug, slug, String.ofList_inj, slugChars_eq, slugChars_eq]
  refine ⟨fun h => ?_, congrArg _⟩
  by_cases hs : words (remains s.toList) = []
  · by_contra hne
    exact hnil t.toList (fun ht => hne (hs.trans ht.symm)) (h ▸ by rw [hs]; rfl)
  · by_cases ht : words (remains t.toList) = []
    · exact absurd (h.trans (by rw [ht]; rfl)) (hnil s.toList hs)
    · rw [← hsplit _ hs, h, hsplit _ ht]

theorem slug_eq_of_asciiLower {s t : String}
    (h : s.toList.map asciiLower = t.toList.map asciiLower) : slug s = slug t := by
  have hkept (cs : List Char) : remains (cs.map asciiLower) = remains cs := by
    rw [remains, List.flatMap_map, remains]
    congr 1
    funext c
    rw [kept, lower_asciiLower, kept]
  rw [slug_eq_iff, ← hkept, h, hkept]

theorem slug_onlySpaces (s : String) : slug (String.ofList (onlySpaces s.toList)) = slug s := by
  rw [slug_eq_iff, String.toList_ofList, remains_onlySpaces]

theorem words_remains_trimChars (cs : List Char) :
    words (remains (trimChars cs)) = words (remains cs) := by
  obtain ⟨lead, trail, hcs, hlead, htrail⟩ := exists_trimChars cs
  have hblank : ∀ ds : List Char, (∀ c ∈ ds, isBlank c = true) →
      ∀ c ∈ remains ds, isBlank c = true := by
    intro ds hds c hc
    obtain ⟨d, hd, hc⟩ := List.mem_flatMap.mp hc
    by_cases hspace : d = ' '
    · rw [hspace, kept_space, List.mem_singleton] at hc
      exact hc ▸ by decide
    · rw [kept_of_isBlank (hds d hd) hspace] at hc
      cases hc
  conv_rhs => rw [hcs, remains, List.flatMap_append, List.flatMap_append]
  rw [← remains, ← remains, ← remains, words_append_blank _ (hblank trail htrail),
    words_blank_append (hblank lead hlead)]

theorem slug_trim (s : String) : slug (trim s) = slug s := by
  rw [slug_eq_iff, trim, String.toList_ofList, words_remains_trimChars]

end Slugs

section SpacedOut

variable {cs : List Char}

def traces (cs : List Char) : List (List Char) :=
  ((words cs).map remains).filter fun w => !w.isEmpty

/-- Of the words that a slug keeps anything of, no two stand without a space between them. -/
def SpacedOut (cs : List Char) : Prop := ∀ piece ∈ splitAt ' ' cs, (traces piece).length ≤ 1

instance (cs : List Char) : Decidable (SpacedOut cs) :=
  inferInstanceAs (Decidable (∀ piece ∈ splitAt ' ' cs, (traces piece).length ≤ 1))

theorem spacedOut_of_notMem (h : ' ' ∉ cs) : SpacedOut cs ↔ (traces cs).length ≤ 1 := by
  rw [SpacedOut, splitAt_of_notMem h, List.forall_mem_singleton]

theorem spacedOut_append {before : List Char} (h : ' ' ∉ before) (after : List Char) :
    SpacedOut (before ++ ' ' :: after) ↔ (traces before).length ≤ 1 ∧ SpacedOut after := by
  rw [SpacedOut, splitAt_append h, List.forall_mem_cons, ← SpacedOut]

theorem traces_append (before after : List Char) :
    traces (before ++ ' ' :: after) = traces before ++ traces after := by
  rw [traces, words_append_cons _ _ (by decide), List.map_append, List.filter_append, traces,
    traces]

theorem words_remains_append (before after : List Char) :
    words (remains (before ++ ' ' :: after)) = words (remains before) ++ words (remains after) := by
  rw [remains, List.flatMap_append, List.flatMap_cons, kept_space, List.singleton_append,
    words_append_cons _ _ (by decide), ← remains, ← remains]

theorem words_remains_of_notMem (h : ' ' ∉ cs) :
    words (remains cs) = [(traces cs).flatten].filter fun w => !w.isEmpty := by
  have hsolid : cs.filter (fun c => !isBlank c) = onlySpaces cs := by
    refine List.filter_congr fun c hc => ?_
    have hne : (c == ' ') = false := beq_false_of_ne fun heq => h (heq ▸ hc)
    rw [hne, Bool.false_or]
  have hflatten : (traces cs).flatten = remains cs := by
    rw [traces, List.flatten_filter_not_isEmpty, ← remains_onlySpaces cs, ← hsolid,
      ← flatten_words, remains, List.flatMap_def, List.map_flatten, List.flatten_flatten,
      List.map_map]
    rfl
  rw [hflatten]
  by_cases hnil : remains cs = []
  · rw [hnil]
    rfl
  · rw [words_of_solid (fun _ => isBlank_of_mem_remains h) hnil]
    simp [hnil]

/-- What is left of a text are the traces of its words, if they are spaced out, and fewer words
otherwise. -/
theorem words_remains_spec (cs : List Char) :
    (SpacedOut cs → words (remains cs) = traces cs) ∧
      (words (remains cs)).length ≤ (traces cs).length ∧
      ((words (remains cs)).length = (traces cs).length → SpacedOut cs) := by
  -- A piece is left as one word at most, so the numbers only agree if no piece has two traces.
  have hpiece : ∀ cs, ' ' ∉ cs → ((traces cs).length ≤ 1 → words (remains cs) = traces cs) ∧
      (words (remains cs)).length ≤ (traces cs).length ∧ (words (remains cs)).length ≤ 1 := by
    intro cs hcs
    rw [words_remains_of_notMem hcs]
    have hne : ∀ w ∈ traces cs, !w.isEmpty := fun w hw => (List.mem_filter.mp hw).2
    rcases htraces : traces cs with _ | ⟨w, _ | ⟨w', rest⟩⟩
    · exact ⟨fun _ => rfl, le_rfl, Nat.zero_le 1⟩
    · have hw := hne w (htraces ▸ List.mem_singleton_self w)
      have hkept : [w].filter (fun w => !w.isEmpty) = [w] := by
        rw [List.filter_cons, if_pos hw, List.filter_nil]
      rw [List.flatten_singleton, hkept]
      exact ⟨fun _ => rfl, le_rfl, le_rfl⟩
    · have hlength := List.length_filter_le (fun w => !w.isEmpty) [(w :: w' :: rest).flatten]
      refine ⟨fun h => ?_, hlength.trans ?_, hlength⟩
      · simp at h
      · simp
  induction cs using splitAt_induction ' ' with
  | last cs hcs =>
    obtain ⟨heq, hle, hone⟩ := hpiece cs hcs
    rw [spacedOut_of_notMem hcs]
    exact ⟨heq, hle, fun h => h ▸ hone⟩
  | more before after hbefore ih =>
    obtain ⟨heq, hle, hone⟩ := hpiece before hbefore
    obtain ⟨heq', hle', hspaced⟩ := ih
    rw [spacedOut_append hbefore, traces_append, words_remains_append, List.length_append,
      List.length_append]
    refine ⟨fun ⟨hfirst, hrest⟩ => by rw [heq hfirst, heq' hrest], Nat.add_le_add hle hle',
      fun h => ?_⟩
    exact ⟨by omega, hspaced (by omega)⟩

theorem traces_eq_iff : words (remains cs) = traces cs ↔ SpacedOut cs :=
  ⟨fun h => (words_remains_spec cs).2.2 (congrArg _ h), (words_remains_spec cs).1⟩

theorem slug_eq_iff_spacedOut {s t : String} (ht : SpacedOut t.toList)
    (h : words s.toList = words t.toList) : slug s = slug t ↔ SpacedOut s.toList := by
  have htraces : traces s.toList = traces t.toList := by rw [traces, h, traces]
  rw [slug_eq_iff, traces_eq_iff.mpr ht, ← htraces, traces_eq_iff]

end SpacedOut

section Collapsed

variable {cs : List Char}

theorem spacedOut_of_spaces (h : ∀ c ∈ cs, isBlank c = true → c = ' ') : SpacedOut cs := by
  intro piece hpiece
  obtain ⟨hspace, hsub⟩ := of_mem_splitAt hpiece
  have hsolid : ∀ c ∈ piece, isBlank c = false := by
    intro c hc
    rw [← Bool.not_eq_true]
    exact fun hblank => hspace (h c (hsub hc) hblank ▸ hc)
  refine (List.length_filter_le _ _).trans ?_
  rw [List.length_map]
  by_cases hnil : piece = []
  · rw [hnil]
    exact Nat.zero_le 1
  · rw [words_of_solid hsolid hnil]
    exact le_rfl

def collapse (s : String) : String := trim (String.ofList (squeeze ' ' s.toList))

theorem words_collapse (s : String) : words (collapse s).toList = words s.toList := by
  rw [collapse, trim, String.toList_ofList, words_trimChars, String.toList_ofList, squeeze]
  exact (words_squeezeFrom (by decide) _).2 []

theorem eq_of_mem_squeezeFrom {fill : Char} (inRun : Bool) {c : Char}
    (hc : c ∈ squeezeFrom fill inRun cs) (hblank : isBlank c = true) : c = fill := by
  induction cs generalizing inRun with
  | nil => cases hc
  | cons d cs ih =>
    rw [squeezeFrom] at hc
    split at hc
    · split at hc
      · exact ih _ hc
      · rcases List.mem_cons.mp hc with rfl | hc
        · rfl
        · exact ih _ hc
    · next hd =>
      rcases List.mem_cons.mp hc with rfl | hc
      · exact absurd hblank hd
      · exact ih _ hc

theorem eq_space_of_mem_collapse {s : String} {c : Char} (hc : c ∈ (collapse s).toList)
    (hblank : isBlank c = true) : c = ' ' := by
  have hmem := mem_of_mem_trim hc
  rw [String.toList_ofList] at hmem
  exact eq_of_mem_squeezeFrom false hmem hblank

theorem spacedOut_collapse (s : String) : SpacedOut (collapse s).toList :=
  spacedOut_of_spaces fun _ => eq_space_of_mem_collapse

theorem slug_collapse (s : String) : slug (collapse s) = slug s ↔ SpacedOut s.toList := by
  rw [eq_comm, slug_eq_iff_spacedOut (spacedOut_collapse s) (words_collapse s).symm]

end Collapsed

end SiteVisit.Text
