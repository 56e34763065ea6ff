import SiteVisit.Proofs.Text.Words

namespace SiteVisit.Text

/-- A text that lists items in this order: between its commas stand an item with blanks around it,
or blanks alone. -/
inductive Itemizes : List Char → List String → Prop
  | blank {cs} : (∀ c ∈ cs, isBlank c = true) → Itemizes cs []
  | item {lead s trail} : (∀ c ∈ lead, isBlank c = true) → IsItem s →
      (∀ c ∈ trail, isBlank c = true) → Itemizes (lead ++ s.toList ++ trail) [s]
  | comma {cs ds items more} : Itemizes cs items → Itemizes ds more →
      Itemizes (cs ++ ',' :: ds) (items ++ more)

section Pieces

variable {cs : List Char}

theorem commaItems_of_notMem (h : ',' ∉ cs) :
    commaItems cs = if trimChars cs = [] then [] else [trimChars cs] := by
  rw [commaItems, splitAt_of_notMem h, List.map_singleton, List.filter_singleton]
  cases trimChars cs <;> rfl

theorem comma_notMem (h : ∀ c ∈ cs, isBlank c = true) : ',' ∉ cs := fun hmem =>
  absurd (h ',' hmem) (by decide)

theorem isBare_trimChars (h : trimChars cs ≠ []) : IsBare (trimChars cs) where
  nonempty := h
  first c hc := by rw [head_trimChars cs c hc]; exact Bool.false_ne_true
  last c hc := by rw [last_trimChars cs c hc]; exact Bool.false_ne_true

end Pieces

section Items

variable {s : String} {items : List String}

theorem Itemizes.commaItems {cs : List Char} (h : Itemizes cs items) :
    commaItems cs = items.map String.toList := by
  induction h with
  | @blank cs hcs =>
    rw [commaItems_of_notMem (comma_notMem hcs), if_pos (trimChars_eq_nil_iff.mpr hcs),
      List.map_nil]
  | @item lead s trail hlead hs htrail =>
    have hcomma : ',' ∉ lead ++ s.toList ++ trail := by
      simp only [List.mem_append, not_or]
      exact ⟨⟨comma_notMem hlead, hs.2⟩, comma_notMem htrail⟩
    rw [commaItems_of_notMem hcomma, hs.1.trimChars_append hlead htrail, if_neg hs.1.nonempty,
      List.map_singleton]
  | comma _ _ ih ih' => rw [commaItems_append_cons, ih, ih', List.map_append]

theorem exists_itemizes (cs : List Char) : ∃ items, Itemizes cs items := by
  have hpiece : ∀ cs, ',' ∉ cs → ∃ items, Itemizes cs items := by
    intro cs hcs
    obtain ⟨lead, trail, heq, hlead, htrail⟩ := exists_trimChars cs
    by_cases hnil : trimChars cs = []
    · exact ⟨[], .blank (trimChars_eq_nil_iff.mp hnil)⟩
    · have hcomma : ',' ∉ trimChars cs := fun hmem => hcs ((trimChars_sublist cs).subset hmem)
      have hitem : IsItem (String.ofList (trimChars cs)) := by
        rw [IsItem, String.toList_ofList]
        exact ⟨isBare_trimChars hnil, hcomma⟩
      have hone := Itemizes.item hlead hitem htrail
      rw [String.toList_ofList, ← heq] at hone
      exact ⟨_, hone⟩
  induction cs using splitAt_induction ',' with
  | last cs hcs => exact hpiece cs hcs
  | more before after hbefore ih =>
    obtain ⟨items, hitems⟩ := hpiece before hbefore
    obtain ⟨more, hmore⟩ := ih
    exact ⟨_, hitems.comma hmore⟩

theorem itemizes_iff : Itemizes s.toList items ↔ commaList s = items := by
  have hread {items : List String} (h : Itemizes s.toList items) : commaList s = items := by
    rw [commaList, h.commaItems, List.map_map]
    simp [Function.comp_def]
  refine ⟨hread, ?_⟩
  rintro rfl
  obtain ⟨items, h⟩ := exists_itemizes s.toList
  exact hread h ▸ h

theorem Itemizes.isItem {cs : List Char} (h : Itemizes cs items) : ∀ s ∈ items, IsItem s := by
  induction h with
  | blank => exact List.forall_mem_nil _
  | item _ hs => exact List.forall_mem_singleton.mpr hs
  | comma _ _ ih ih' => exact List.forall_mem_append.mpr ⟨ih, ih'⟩

theorem isItem_of_mem_commaList {item : String} (h : item ∈ commaList s) : IsItem item :=
  (itemizes_iff.mpr rfl).isItem item h

theorem commaList_append_comma (s t : String) :
    commaList (s ++ "," ++ t) = commaList s ++ commaList t := by
  have hcomma : ",".toList = [','] := rfl
  rw [commaList, String.toList_append, String.toList_append, hcomma, List.append_assoc,
    List.singleton_append, commaItems_append_cons, List.map_append, commaList, commaList]

/-- Every text lists items in one way. They have no commas and no blanks around them, and exactly
such items are read again when they have been joined. So joining what a text lists changes nothing,
and two texts with a comma between them list what the one lists and then what the other does. -/
theorem commaList_laws (s t : String) (items : List String) :
    (Itemizes s.toList items ↔ commaList s = items) ∧
    (∀ item ∈ commaList s, IsItem item) ∧
    (commaList (commaJoin items) = items ↔ ∀ item ∈ items, IsItem item) ∧
    commaList (commaJoin (commaList s)) = commaList s ∧
    commaList (s ++ "," ++ t) = commaList s ++ commaList t := by
  have hitems : ∀ item ∈ commaList s, IsItem item := fun _ => isItem_of_mem_commaList
  refine ⟨itemizes_iff, hitems, ⟨fun h item hitem => ?_, commaList_commaJoin⟩,
    commaList_commaJoin hitems, commaList_append_comma s t⟩
  rw [← h] at hitem
  exact isItem_of_mem_commaList hitem

theorem commaList_laws_sections : "SII" ∈ commaList " SI, SII ,, " ∧ IsItem "SII" ∧
    commaList (commaJoin ["SI", "SII"]) = ["SI", "SII"] := by
  have hlist : commaList " SI, SII ,, " = ["SI", "SII"] := by decide
  have hmem : "SII" ∈ commaList " SI, SII ,, " := by rw [hlist]; decide
  obtain ⟨-, hitems, hjoined, -⟩ := commaList_laws " SI, SII ,, " "" ["SI", "SII"]
  exact ⟨hmem, hitems "SII" hmem, hjoined.mpr (hlist ▸ hitems)⟩

end Items
end SiteVisit.Text
