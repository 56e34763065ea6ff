import SiteVisit.Proofs.Store.Moments
import SiteVisit.Proofs.Text.Wildcard

namespace SiteVisit

namespace Text

def IsLiteral (s : String) : Prop := ∀ c ∈ s.toList, c ≠ '%' ∧ c ≠ '_' ∧ c ≠ '\x00'

/-- Has a part that is the same but for the case of ASCII letters. -/
def Mentions (text part : List Char) : Prop :=
  part.map Char.toLower <:+: text.map Char.toLower

end Text

namespace Store

open Calendar (Timezones)
open Text (Covers IsLiteral Mentions trim upToNull)

variable {s : Store} {row : MeetingRow} {term wider : String}

def searchPattern (term : String) : String := "%" ++ trim term ++ "%"

theorem mem_search_iff : row ∈ s.search term ↔ row ∈ s.meetings ∧
    (Covers (upToNull (searchPattern term)) (upToNull row.name) ∨
      Covers (upToNull (searchPattern term)) (upToNull row.location)) := by
  rw [search, List.mem_filter, Bool.or_eq_true, Text.isLike_iff, Text.isLike_iff]
  rfl

theorem upToNull_searchPattern (h : '\x00' ∉ (trim term).toList) :
    upToNull (searchPattern term) = '%' :: ((trim term).toList ++ ['%']) := by
  have hchars : (searchPattern term).toList = '%' :: ((trim term).toList ++ ['%']) := by
    simp [searchPattern]
  rw [Text.upToNull_of_notMem, hchars]
  simp [hchars, h]

theorem covers_searchPattern (h : '\x00' ∉ (trim term).toList) {text : List Char} :
    Covers (upToNull (searchPattern term)) text ↔
      ∃ part, part <:+: text ∧ Covers (trim term).toList part := by
  rw [upToNull_searchPattern h, Text.covers_between]

theorem covers_searchPattern_plain (h : IsLiteral (trim term)) {text : List Char} :
    Covers (upToNull (searchPattern term)) text ↔ Mentions text (trim term).toList := by
  rw [covers_searchPattern fun hnull => (h _ hnull).2.2 rfl, Mentions, Text.infix_map_iff]
  simp only [Text.covers_plain fun c hc => ⟨(h c hc).1, (h c hc).2.1⟩]

theorem covers_searchPattern_of_part (hnull : '\x00' ∉ wider.toList)
    (hterm : term.toList <:+: wider.toList) {text : List Char}
    (h : Covers (upToNull (searchPattern wider)) text) :
    Covers (upToNull (searchPattern term)) text := by
  have hwider : '\x00' ∉ (trim wider).toList := fun hmem => hnull (Text.mem_of_mem_trim hmem)
  have hinfix : (trim term).toList <:+: (trim wider).toList := by
    simp only [trim, String.toList_ofList]
    exact Text.infix_trimChars ((Text.trimChars_isInfix _).trans hterm)
  obtain ⟨part, hpart, h⟩ := (covers_searchPattern hwider).mp h
  obtain ⟨front, back, hsplit⟩ := hinfix
  rw [← hsplit] at h
  obtain ⟨_, _, rfl, h, -⟩ := Text.covers_append.mp h
  obtain ⟨first, middle, rfl, -, h⟩ := Text.covers_append.mp h
  have hterm : '\x00' ∉ (trim term).toList := fun hmem =>
    hwider (hsplit ▸ List.mem_append_left _ (List.mem_append_right _ hmem))
  exact (covers_searchPattern hterm).mpr ⟨middle, .trans ⟨first, _, rfl⟩ hpart, h⟩

theorem search_sublist (term : String) : (s.search term).Sublist s.meetings := List.filter_sublist

theorem search_blank (h : trim term = "") : s.search term = s.meetings := by
  rw [search, List.filter_eq_self]
  intro row hrow
  have hempty : (trim term).toList = [] := by rw [h]; rfl
  have hcovers : Covers (upToNull (searchPattern term)) (upToNull row.name) := by
    rw [covers_searchPattern (by simp [hempty]), hempty]
    exact ⟨[], List.nil_infix, .nil⟩
  rw [← searchPattern, Text.isLike_iff.mpr hcovers, Bool.true_or]

theorem search_sublist_of_part (hnull : '\x00' ∉ wider.toList)
    (hterm : term.toList <:+: wider.toList) : (s.search wider).Sublist (s.search term) := by
  refine List.monotone_filter_right _ fun row hrow => ?_
  rw [Bool.or_eq_true, ← searchPattern, Text.isLike_iff, Text.isLike_iff] at hrow ⊢
  exact hrow.imp (covers_searchPattern_of_part hnull hterm) (covers_searchPattern_of_part hnull hterm)

theorem searchMeetings_eq (s : Store) (term : String) :
    (s.meetings = [] ∨ (searchPattern term).utf8ByteSize ≤ longestPattern →
      s.searchMeetings term = .ok (s.search term)) ∧
    (s.meetings ≠ [] → longestPattern < (searchPattern term).utf8ByteSize →
      s.searchMeetings term =
        .error (.defect (.foreign "OperationalError" "LIKE or GLOB pattern too complex"))) := by
  rw [searchMeetings, ← searchPattern]
  refine ⟨fun hfits => if_neg ?_, fun hsome hlong => if_pos ?_⟩
  · rcases hfits with hnone | hfits
    · simp [hnone]
    · simp [Nat.not_lt.mpr hfits]
  · simpa using ⟨hlong, hsome⟩

/-- A search in a populated store finds, in the order of their numbers, the meetings whose name or
place the pattern of the term stands for. A term without wildcards is a part of the name or place,
up to case; one of blanks finds all; and one that contains another finds no more than it. The engine
answers with these meetings unless the pattern is too long for it. -/
theorem populated_search {zones : Timezones} {zone path : String} {v : Visit}
    {earlier stored : Store} {messages after : List Message}
    (h : populateOver earlier path v zone messages zones = (.ok s, after, stored)) :
    List.Forall₂ (fun (m : Meeting) (row : MeetingRow) =>
      row.name = m.name ∧ row.location = m.location) v.meetings s.meetings ∧
    ∀ term,
      (s.search term).Sublist s.meetings ∧ ((s.search term).map (·.id)).Pairwise (· < ·) ∧
      (∀ row ∈ s.meetings, row ∈ s.search term ↔
        Covers (upToNull ("%" ++ trim term ++ "%")) (upToNull row.name) ∨
          Covers (upToNull ("%" ++ trim term ++ "%")) (upToNull row.location)) ∧
      (IsLiteral (trim term) → ∀ row ∈ s.meetings, row ∈ s.search term ↔
        Mentions (upToNull row.name) (trim term).toList ∨
          Mentions (upToNull row.location) (trim term).toList) ∧
      (trim term = "" → s.search term = s.meetings) ∧
      (∀ wider : String, '\x00' ∉ wider.toList → term.toList <:+: wider.toList →
        (s.search wider).Sublist (s.search term)) ∧
      (s.meetings = [] ∨ ("%" ++ trim term ++ "%").utf8ByteSize ≤ longestPattern →
        s.searchMeetings term = .ok (s.search term)) ∧
      (s.meetings ≠ [] → longestPattern < ("%" ++ trim term ++ "%").utf8ByteSize →
        s.searchMeetings term =
          .error (.defect (.foreign "OperationalError" "LIKE or GLOB pattern too complex"))) := by
  obtain ⟨hholds, -, -⟩ := populateOver_ok (nodup_ids_of_populateOver h) h
  refine ⟨hholds.meetings.imp fun _ _ row => ⟨row.name, row.location⟩, fun term => ?_⟩
  have hids := List.pairwise_map.mpr (hholds.pairwise_id.sublist (search_sublist term))
  refine ⟨search_sublist term, hids, fun row hrow => ?_, fun hliteral row hrow => ?_, search_blank,
    fun wider => search_sublist_of_part, searchMeetings_eq s term⟩
  · rw [mem_search_iff, and_iff_right hrow]
    rfl
  · rw [mem_search_iff, and_iff_right hrow, covers_searchPattern_plain hliteral,
      covers_searchPattern_plain hliteral]

theorem populated_search_tour :
    (∃ row ∈ tourStore.search " OPEN\n", row.name = "Opening") ∧
      tourStore.search "\t" = tourStore.meetings ∧
      (tourStore.search "Open").Sublist (tourStore.search "pe") := by
  obtain ⟨-, hsearch⟩ := populated_search (populateOver_tour {})
  obtain ⟨-, -, -, hliteral, -⟩ := hsearch " OPEN\n"
  obtain ⟨-, -, -, -, hblank, -⟩ := hsearch "\t"
  obtain ⟨row, hrow, hname, hmentions⟩ : ∃ row ∈ tourStore.meetings, row.name = "Opening" ∧
      (trim " OPEN\n").toList.map Char.toLower <:+: (upToNull row.name).map Char.toLower := by
    decide
  have hall : (trim " OPEN\n").toList.all fun c => c != '%' && (c != '_' && c != '\x00') := by
    decide
  have hterm : IsLiteral (trim " OPEN\n") := by
    intro c hc
    simpa using List.all_eq_true.mp hall c hc
  obtain ⟨-, -, -, -, -, hwider, -⟩ := hsearch "pe"
  exact ⟨⟨row, (hliteral hterm row hrow).mpr (.inl hmentions), hname⟩, hblank (by decide),
    hwider "Open" (by decide) (by decide)⟩

/-- An underscore is found in names and places that have none. -/
theorem search_underscore : (∃ after, populateOver {} "visit.db" tour "UTC" [] =
    (.ok tourStore, after, tourStore)) ∧
    (∀ row ∈ tourStore.meetings, ¬ Mentions row.name.toList ['_'] ∧
      ¬ Mentions row.location.toList ['_']) ∧
    tourStore.search "_" = tourStore.meetings ∧ tourStore.meetings ≠ [] := by
  have hnowhere : ∀ row ∈ tourStore.meetings, ¬ Mentions row.name.toList ['_'] ∧
      ¬ Mentions row.location.toList ['_'] := by
    unfold Mentions
    decide
  have hsearch : tourStore.search "_" = tourStore.meetings := by decide
  exact ⟨⟨_, populateOver_tour {}⟩, hnowhere, hsearch, List.cons_ne_nil _ _⟩

end Store
end SiteVisit
