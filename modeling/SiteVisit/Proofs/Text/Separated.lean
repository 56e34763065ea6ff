import SiteVisit.Proofs.Text.Blank
import SiteVisit.Text.Separated

namespace SiteVisit.Text

structure IsBare (cs : List Char) : Prop where
  nonempty : cs ≠ []
  first : ∀ c ∈ cs.head?, ¬ isBlank c
  last : ∀ c ∈ cs.getLast?, ¬ isBlank c

theorem isBare_iff {cs : List Char} : IsBare cs ↔
    cs ≠ [] ∧ cs.head?.all (!isBlank ·) ∧ cs.getLast?.all (!isBlank ·) := by
  simp only [Option.all_eq_true, Bool.not_eq_true', ← Bool.not_eq_true]
  exact ⟨fun h => ⟨h.nonempty, h.first, h.last⟩, fun h => ⟨h.1, h.2.1, h.2.2⟩⟩

instance (cs : List Char) : Decidable (IsBare cs) := decidable_of_iff _ isBare_iff.symm

namespace IsBare

variable {cs ds : List Char}

theorem trimChars_append {lead trail : List Char} (h : IsBare cs)
    (hlead : ∀ c ∈ lead, isBlank c = true) (htrail : ∀ c ∈ trail, isBlank c = true) :
    Text.trimChars (lead ++ cs ++ trail) = cs := by
  have hstart : (cs ++ trail).dropWhile isBlank = cs ++ trail := by
    obtain ⟨c, rest, rfl⟩ := List.exists_cons_of_ne_nil h.nonempty
    exact List.dropWhile_cons_of_neg (h.first c rfl)
  have hend : cs.rdropWhile isBlank = cs :=
    List.rdropWhile_eq_self_iff.mpr fun hne => h.last _ (List.getLast?_eq_some_getLast hne)
  rw [trimChars_eq, List.append_assoc, List.dropWhile_append_of_pos hlead, hstart,
    List.rdropWhile, List.reverse_append,
    List.dropWhile_append_of_pos fun c hc => htrail c (List.mem_reverse.mp hc)]
  exact hend

theorem trimChars (h : IsBare cs) : trimChars cs = cs := by
  simpa using h.trimChars_append (List.forall_mem_nil _) (List.forall_mem_nil _)

theorem join (hc : IsBare cs) (hd : IsBare ds) (between : List Char) :
    IsBare (cs ++ between ++ ds) where
  nonempty := by simp [hc.nonempty]
  first := by
    rw [List.append_assoc, List.head?_append_of_ne_nil _ hc.nonempty]
    exact hc.first
  last := by
    rw [List.getLast?_append_of_ne_nil _ hd.nonempty]
    exact hd.last

end IsBare

section Split

variable {sep : Char}

theorem splitAt_of_notMem {cs : List Char} (h : sep ∉ cs) : splitAt sep cs = [cs] := by
  induction cs with
  | nil => rfl
  | cons c cs ih =>
    obtain ⟨hc, hcs⟩ := not_or.mp (mt List.mem_cons.mpr h)
    rw [splitAt, if_neg (by simpa using Ne.symm hc), ih hcs]

theorem splitAt_append {cs : List Char} (h : sep ∉ cs) (rest : List Char) :
    splitAt sep (cs ++ sep :: rest) = cs :: splitAt sep rest := by
  induction cs with
  | nil => simp [splitAt]
  | cons c cs ih =>
    obtain ⟨hc, hcs⟩ := not_or.mp (mt List.mem_cons.mpr h)
    rw [List.cons_append, splitAt, if_neg (by simpa using Ne.symm hc), ih hcs]

/-- What holds of a text without a separator, and of one with a separator if it does of the part
after the first, holds of every text. -/
@[elab_as_elim]
theorem splitAt_induction (sep : Char) {P : List Char → Prop} (last : ∀ cs, sep ∉ cs → P cs)
    (more : ∀ before after, sep ∉ before → P after → P (before ++ sep :: after)) (cs : List Char) :
    P cs := by
  have hnext : ∀ before, sep ∉ before → P (before ++ cs) := by
    induction cs with
    | nil =>
      intro before hbefore
      rw [List.append_nil]
      exact last before hbefore
    | cons c cs ih =>
      intro before hbefore
      by_cases hc : c = sep
      · subst hc
        exact more before cs hbefore (ih [] List.not_mem_nil)
      · rw [List.append_cons]
        exact ih (before ++ [c]) (by simpa [hbefore] using Ne.symm hc)
  exact hnext [] List.not_mem_nil

theorem splitAt_append_cons (cs ds : List Char) :
    splitAt sep (cs ++ sep :: ds) = splitAt sep cs ++ splitAt sep ds := by
  induction cs using splitAt_induction sep with
  | last cs hcs => rw [splitAt_append hcs, splitAt_of_notMem hcs, List.singleton_append]
  | more before after hbefore ih =>
    rw [List.append_assoc, List.cons_append, splitAt_append hbefore, ih, splitAt_append hbefore,
      List.cons_append]

theorem of_mem_splitAt {cs piece : List Char} (h : piece ∈ splitAt sep cs) :
    sep ∉ piece ∧ piece ⊆ cs := by
  induction cs using splitAt_induction sep with
  | last cs hcs =>
    rw [splitAt_of_notMem hcs, List.mem_singleton] at h
    rw [h]
    exact ⟨hcs, List.Subset.refl cs⟩
  | more before after hbefore ih =>
    rw [splitAt_append hbefore, List.mem_cons] at h
    rcases h with rfl | h
    · exact ⟨hbefore, List.subset_append_left _ _⟩
    · obtain ⟨hsep, hsub⟩ := ih h
      exact ⟨hsep, fun c hc => List.mem_append_right before (List.mem_cons_of_mem sep (hsub hc))⟩

end Split

theorem commaItems_append_cons (cs ds : List Char) :
    commaItems (cs ++ ',' :: ds) = commaItems cs ++ commaItems ds := by
  rw [commaItems, splitAt_append_cons, List.map_append, List.filter_append, commaItems, commaItems]

def IsItem (s : String) : Prop := IsBare s.toList ∧ ',' ∉ s.toList

instance (s : String) : Decidable (IsItem s) := inferInstanceAs (Decidable (_ ∧ _))

theorem IsItem.commaItems {s : String} (h : IsItem s) : commaItems s.toList = [s.toList] := by
  rw [Text.commaItems, splitAt_of_notMem h.2]
  simp [h.1.trimChars, h.1.nonempty]

theorem commaItems_space (cs : List Char) : commaItems (' ' :: cs) = commaItems cs := by
  have htrim (piece : List Char) : trimChars (' ' :: piece) = trimChars piece := rfl
  rw [commaItems, commaItems, splitAt]
  cases hpieces : splitAt ',' cs with
  | nil => rfl
  | cons piece pieces => simp [htrim]

theorem commaJoin_cons (s t : String) (items : List String) :
    commaJoin (s :: t :: items) = s ++ ", " ++ commaJoin (t :: items) :=
  String.intercalate_cons_cons ..

section Joined

variable {items : List String}

theorem isBare_commaJoin (h : ∀ item ∈ items, IsItem item) (hne : items ≠ []) :
    IsBare (commaJoin items).toList := by
  induction items with
  | nil => exact (hne rfl).elim
  | cons s items ih =>
    obtain ⟨hs, hitems⟩ := List.forall_mem_cons.mp h
    cases items with
    | nil => simpa [commaJoin] using hs.1
    | cons t items =>
      rw [commaJoin_cons, String.toList_append, String.toList_append]
      exact hs.1.join (ih hitems (List.cons_ne_nil _ _)) _

theorem trim_commaJoin (h : ∀ item ∈ items, IsItem item) :
    trim (commaJoin items) = commaJoin items := by
  by_cases hne : items = []
  · subst hne
    rfl
  · rw [trim, (isBare_commaJoin h hne).trimChars, String.ofList_toList]

theorem commaList_commaJoin (h : ∀ item ∈ items, IsItem item) :
    commaList (commaJoin items) = items := by
  have hitems : commaItems (commaJoin items).toList = items.map String.toList := by
    induction items with
    | nil => rfl
    | cons s items ih =>
      obtain ⟨hs, hitems⟩ := List.forall_mem_cons.mp h
      cases items with
      | nil => simpa [commaJoin] using hs.commaItems
      | cons t items =>
        have hsep : ", ".toList = [',', ' '] := rfl
        rw [commaJoin_cons, String.toList_append, String.toList_append, hsep, List.append_assoc,
          List.cons_append, commaItems_append_cons, hs.commaItems, List.singleton_append,
          List.singleton_append, commaItems_space, ih hitems]
        rfl
  rw [commaList, hitems, List.map_map]
  simp [Function.comp_def]

end Joined
end SiteVisit.Text
