import SiteVisit.Proofs.Store.Place
import SiteVisit.Proofs.Store.Readback

namespace SiteVisit.Store

open Calendar (Timezones)

variable {zones : Timezones} {zone path : String} {v : Visit} {messages : List Message}

section Empty

theorem detail?_empty {id : Int} (hid : isRowNumber id = true) :
    ({} : Store).detail? id = .ok none := by
  rw [detail?, if_pos hid]
  rfl

theorem current_empty (now : Calendar.Moment) :
    ({} : Store).current now = (Stamp.ofMoment now).map fun _ => [] := by
  rw [current]
  cases Stamp.ofMoment now with
  | error e => rfl
  | ok t => simp [Except.map]

theorem upcoming_empty (now : Calendar.Moment) :
    ({} : Store).upcoming now = (Stamp.ofMoment now).map fun _ => [] := by
  rw [upcoming]
  cases Stamp.ofMoment now <;> rfl

theorem searchMeetings_empty (term : String) : ({} : Store).searchMeetings term = .ok [] := by
  rw [searchMeetings, if_neg (by simp)]
  rfl

end Empty

theorem populateOver_error {earlier stored : Store} {after : List Message} {e : Fault}
    (h : populateOver earlier path v zone messages zones = (.error e, after, stored)) :
    stored = {} := by
  rcases hwrite : (write path v zone zones).outcome { saved := earlier, messages } with
    ⟨e' | counts, s⟩
  · simp only [populateOver, hwrite] at h
    cases h
    exact write_error hwrite
  · simp only [populateOver, hwrite] at h
    cases h

section Files

variable {α : Type} [StoreContent α] {f f' : Folder α} {content : Store → α} {isStore : α → Bool}
  {after : List Message}

theorem requireWritable_of_populateIn (hstore : ∀ s, isStore (content s) = true) {s : Store}
    (h : populateIn f content isStore path v zone messages zones = (.ok s, after, f')) :
    requireWritable f' isStore path = .ok () := by
  obtain ⟨stored, -, rfl⟩ := populateIn_ok h
  cases hwritable : requireWritable f isStore path with
  | ok _ => exact requireWritable_put hwritable (hstore stored)
  | error e =>
    rw [populateIn, hwritable] at h
    cases h

theorem populateIn_error {e : Fault} (hwritable : requireWritable f isStore path = .ok ())
    (h : populateIn f content isStore path v zone messages zones = (.error e, after, f')) :
    f' = f.put path (content {}) := by
  rcases hover : populateOver (earlierIn f path) path v zone messages zones with
    ⟨result, reported, stored⟩
  simp only [populateIn, hwritable, hover] at h
  cases h
  rw [populateOver_error hover]

/-- A populate that fails over the store of an earlier one, whatever value of the visit it fails at,
leaves a store that answers every question as an empty one does. -/
theorem failed_populate_empties {zones₀ : Timezones} {zone₀ : String} {v₀ : Visit}
    {messages₀ after₀ : List Message} {f₀ : Folder α} {s : Store} {e : Fault}
    (hstore : ∀ s, isStore (content s) = true)
    (hearlier : populateIn f₀ content isStore path v₀ zone₀ messages₀ zones₀ = (.ok s, after₀, f))
    (h : populateIn f content isStore path v zone messages zones = (.error e, after, f')) :
    ∃ stored : Store, f'.entry path = .file (content stored) ∧ stored.meetings = [] ∧
      (∀ id, isRowNumber id = true → stored.detail? id = .ok none) ∧
      (∀ now, stored.current now = (Stamp.ofMoment now).map fun _ => []) ∧
      (∀ now, stored.upcoming now = (Stamp.ofMoment now).map fun _ => []) ∧
      ∀ term, stored.searchMeetings term = .ok [] := by
  have hwritable := requireWritable_of_populateIn hstore hearlier
  refine ⟨{}, ?_, rfl, fun _ => detail?_empty, current_empty, upcoming_empty, searchMeetings_empty⟩
  rw [populateIn_error hwritable h, Folder.entry_put]

end Files

def roomlessTour : Visit := { tour with zoomRooms := [] }

theorem populateIn_roomlessTour (earlier : Store) :
    ∃ e, populateIn (⟨[("visit.db", earlier)]⟩ : Folder Store) id (fun _ => true) "visit.db"
      roomlessTour "UTC" [] = (.error e, [], ⟨[("visit.db", {})]⟩) := by
  obtain ⟨e, he⟩ := exists_error_of_toOption
    (show (populateOver {} "visit.db" roomlessTour "UTC" []).1.toOption = none by decide)
  have hrest : (populateOver {} "visit.db" roomlessTour "UTC" []).2 = ([], {}) := by
    decide
  have hwritable : requireWritable (⟨[("visit.db", earlier)]⟩ : Folder Store) (fun _ => true)
      "visit.db" = .ok () := rfl
  have hover : populateOver {} "visit.db" roomlessTour "UTC" [] = (.error e, [], {}) :=
    Prod.ext he hrest
  refine ⟨e, ?_⟩
  simp only [populateIn, hwritable]
  rw [populateOver_earlier, hover]
  rfl

/-- The meetings that were stored do not survive a visit that cannot be stored. -/
theorem failed_populate_loses_meetings :
    ∃ e after, populateIn (⟨[("visit.db", {})]⟩ : Folder Store) id (fun _ => true) "visit.db" tour
        "UTC" [] = (.ok tourStore, after, ⟨[("visit.db", tourStore)]⟩) ∧
      populateIn (⟨[("visit.db", tourStore)]⟩ : Folder Store) id (fun _ => true) "visit.db"
        roomlessTour "UTC" [] = (.error e, [], ⟨[("visit.db", {})]⟩) ∧
      ({} : Store).meetings ≠ tourStore.meetings := by
  obtain ⟨e, he⟩ := populateIn_roomlessTour tourStore
  exact ⟨e, _, populateIn_tour {}, he, by decide⟩

theorem failed_populate_empties_tour : ∃ stored : Store, stored.meetings = [] ∧
    stored.detail? 1 = .ok none ∧
    ∃ e f', populateIn (⟨[("visit.db", tourStore)]⟩ : Folder Store) id (fun _ => true) "visit.db"
      roomlessTour "UTC" [] = (.error e, [], f') ∧ f'.entry "visit.db" = .file stored := by
  obtain ⟨e, he⟩ := populateIn_roomlessTour tourStore
  obtain ⟨stored, hentry, hmeetings, hdetail, -⟩ :=
    failed_populate_empties (fun _ => rfl) (populateIn_tour {}) he
  exact ⟨stored, hmeetings, hdetail 1 (by decide), e, _, he, hentry⟩

end SiteVisit.Store
