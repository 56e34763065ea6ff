import SiteVisit.Proofs.Browser.Listing
import SiteVisit.Proofs.Visit.Usable

namespace SiteVisit

open Calendar

namespace Browser

namespace Address

theorem get?_put (address : Address) (key value : String) :
    (address.put key value).get? key = some value := by
  have hnone : (address.erase key).find? (·.1 == key) = none := by
    simp [erase, List.find?_eq_none]
  simp [get?, put, List.find?_append, hnone]

end Address

open Drawing
open Store (IsStamped MeetingRow)

section Pressed

variable {v : Visitor} {title : String} {row : MeetingRow} {rows current upcoming : List MeetingRow}

theorem foldl_afterCard_of_unpressed (h : ∀ row ∈ rows, cardKey title row ∉ v.pressed)
    (address : Address) : rows.foldl (afterCard v title) address = address := by
  induction rows with
  | nil => rfl
  | cons row rows ih =>
    obtain ⟨hrow, hrows⟩ := List.forall_mem_cons.mp h
    rw [List.foldl_cons, afterCard, if_neg (mt List.contains_iff_mem.mp hrow), ih hrows]

theorem foldl_afterCard_of_pressed (hids : (rows.map (·.id)).Nodup) (hrow : row ∈ rows)
    (hpressed : v.pressed = [cardKey title row]) (address : Address) :
    rows.foldl (afterCard v title) address =
      address.put "meeting" (Text.signedDecimal row.id) := by
  obtain ⟨before, after, rfl⟩ := List.append_of_mem hrow
  have hother : ∀ other ∈ before ++ after, cardKey title other ∉ v.pressed := by
    intro other hmem hkey
    rw [hpressed, List.mem_singleton, cardKey_inj] at hkey
    rw [List.map_append, List.map_cons, List.nodup_middle, ← List.map_append] at hids
    exact (List.nodup_cons.mp hids).1 (hkey ▸ List.mem_map_of_mem hmem)
  obtain ⟨hbefore, hafter⟩ := List.forall_mem_append.mp hother
  rw [List.foldl_append, foldl_afterCard_of_unpressed hbefore, List.foldl_cons, afterCard,
    if_pos (by simp [hpressed]), foldl_afterCard_of_unpressed hafter]

theorem afterCards_current (hids : (current.map (·.id)).Nodup) (hrow : row ∈ current)
    (hpressed : v.pressed = [cardKey "Current Meetings" row]) (upcoming : List MeetingRow)
    (address : Address) : afterCards v current upcoming address =
      address.put "meeting" (Text.signedDecimal row.id) := by
  have hother : ∀ other ∈ upcoming, cardKey "Upcoming Meetings" other ∉ v.pressed := by
    intro other _
    rw [hpressed, List.mem_singleton]
    exact cardKey_current_ne_upcoming.symm
  rw [afterCards, foldl_afterCard_of_pressed hids hrow hpressed,
    foldl_afterCard_of_unpressed hother]

theorem afterCards_upcoming (hids : (upcoming.map (·.id)).Nodup) (hrow : row ∈ upcoming)
    (hpressed : v.pressed = [cardKey "Upcoming Meetings" row]) (current : List MeetingRow)
    (address : Address) : afterCards v current upcoming address =
      address.put "meeting" (Text.signedDecimal row.id) := by
  have hother : ∀ other ∈ current, cardKey "Current Meetings" other ∉ v.pressed := by
    intro other _
    rw [hpressed, List.mem_singleton]
    exact cardKey_current_ne_upcoming
  rw [afterCards, foldl_afterCard_of_unpressed hother,
    foldl_afterCard_of_pressed hids hrow hpressed]

end Pressed

section Opened

variable {s : Store} {row : MeetingRow}

/-- Whatever is done on the next page of an address but going back, it is the page of a meeting, and
the name that the meeting is shown by stands at its top. -/
def Opens (zones : Timezones) (settings : Settings) (s : Store) (row : MeetingRow)
    (address : Address) : Prop :=
  ∀ (entryAt : String → Entry (Option Store)) (clock : Moment) (v : Visitor),
    entryAt (Text.path (typedPath settings v)) = .file (some s) → clock.frame ≠ .unknown →
    "Back to meetings" ∉ v.pressed →
    ∃ now p drawn,
      presentMoment settings.timezone clock ((address.get? "now").getD "") zones = .ok now ∧
      page settings entryAt clock v address zones = (none, p) ∧
      ended ((detail settings.documents now (s.detailOf row)).run.run
        ⟨heading settings v now ++ [.sideButton "Back to meetings"], address⟩) = (none, p) ∧
      p.events = heading settings v now ++ [.sideButton "Back to meetings",
        .header (displayName row.name row.id)] ++ drawn ∧
      ∀ e ∈ drawn, e.isError = false

theorem detail?_of_mem (hids : (s.meetings.map (·.id)).Nodup) (hrow : row ∈ s.meetings)
    (hid : Store.isRowNumber row.id = true) :
    s.detail? row.id = .ok (some (s.detailOf row)) := by
  rw [Store.detail?, if_pos hid]
  have hsome : (s.meetings.find? fun m => (m.id : Int) == row.id).isSome = true :=
    List.find?_isSome.mpr ⟨row, hrow, beq_self_eq_true _⟩
  obtain ⟨found, hfound⟩ := Option.isSome_iff_exists.mp hsome
  have hsame : found = row := List.inj_on_of_nodup_map hids (List.mem_of_find?_eq_some hfound) hrow
    (by simpa using List.find?_some hfound)
  rw [hfound, hsame]
  rfl

theorem wholeNumber?_of_isRowNumber {n : Nat} (h : Store.isRowNumber n = true) :
    wholeNumber? (Text.signedDecimal n) = some (n : Int) := by
  -- The numbers of rows have at most nineteen digits.
  refine wholeNumber?_decimal (Nat.le_trans
    ((Nat.length_toDigits_le_iff (by omega) (by decide)).mpr ?_) (by decide : 19 ≤ mostDigits))
  simp only [Store.isRowNumber, Bool.and_eq_true, decide_eq_true_eq] at h
  omega

theorem opens_of_mem {zones : Timezones} {settings : Settings} {z : Offsets}
    (hzone : zones settings.timezone = some z) (hstamped : ∀ row ∈ s.meetings, IsStamped row)
    (hids : (s.meetings.map (·.id)).Nodup) (hrow : row ∈ s.meetings)
    (hid : Store.isRowNumber row.id = true) {address : Address}
    (haddress : address.get? "meeting" = some (Text.signedDecimal row.id)) :
    Opens zones settings s row address := by
  intro entryAt clock v hentry hclock hback
  obtain ⟨now, t, hpresent, hnow⟩ :=
    exists_presentMoment hzone hclock ((address.get? "now").getD "")
  have hnumber := wholeNumber?_of_isRowNumber hid
  have hasked : Text.signedDecimal row.id ≠ "" := by
    intro hempty
    rw [hempty] at hnumber
    cases hnumber
  obtain ⟨rest, hrest, hshown⟩ : ∃ rest : Drawing Unit, rest.Draws False ∧ _ :=
    detail_draws hnow settings.documents (d := s.detailOf row) (hstamped row hrow)
  have hheader : (s.detailOf row).meeting = row := rfl
  rw [hheader] at hshown
  let top := heading settings v now ++ [.sideButton "Back to meetings"]
  obtain ⟨drawn, address', hdrawn, ⟨⟨⟩, hrun⟩ | ⟨hfalse, -⟩⟩ :=
    hrest ⟨top ++ [.header (displayName row.name row.id)], address⟩
  · have hdetail : (detail settings.documents now (s.detailOf row)).run.run ⟨top, address⟩ =
        (.ok (), ⟨top ++ [.header (displayName row.name row.id)] ++ drawn, address'⟩) := by
      rw [hshown, run_run_bind, run_emit]
      exact hrun
    refine ⟨now, ⟨_, address'⟩, drawn, hpresent, ?_, congrArg ended hdetail, ?_, hdrawn⟩
    · rw [page_eq hentry hpresent, haddress, Option.getD_some,
        run_contents_selected hback _ hasked, run_selectedMeeting hnumber, run_detailOf,
        detail?_of_mem hids hrow hid]
      dsimp only
      rw [hdetail]
      rfl
    · simp [top]
  · exact hfalse.elim

end Opened

section Offered

variable {s : Store} {now : Moment} {row : MeetingRow} {rows : List MeetingRow}

theorem exists_sublist_of_current (h : s.current now = .ok rows) :
    ∃ kept, kept.Sublist s.meetings ∧ rows.Perm kept := by
  rw [Store.current] at h
  obtain ⟨t, -, h⟩ := bind_eq_ok.mp h
  cases h
  exact ⟨_, List.filter_sublist, List.mergeSort_perm _ _⟩

theorem sublist_of_upcoming (h : s.upcoming now = .ok rows) : rows.Sublist s.meetings := by
  rw [Store.upcoming] at h
  obtain ⟨t, -, h⟩ := bind_eq_ok.mp h
  split at h
  · cases h
    exact List.nil_sublist _
  · cases h
    exact List.filter_sublist

theorem map_frame {frame : List FrameRow} (h : rows.mapM (FrameRow.ofMeeting now) = .ok frame) :
    (frame.map fun r => (r.id, r.name)) = rows.map fun row => ((row.id : Int), row.name) := by
  have hrows := mapM_eq_ok.mp h
  clear h
  induction hrows with
  | nil => rfl
  | @cons row r rows frame hrow _ ih =>
    obtain ⟨text, -, hr⟩ := bind_eq_ok.mp hrow
    cases hr
    rw [List.map_cons, List.map_cons, ih]

structure Carded (s : Store) (now : Moment) (current upcoming : List MeetingRow) : Prop where
  current_eq : s.current now = .ok current
  upcoming_eq : s.upcoming now = .ok upcoming
  stored : ∀ row ∈ current ++ upcoming, row ∈ s.meetings
  currentIds : (current.map (·.id)).Nodup
  upcomingIds : (upcoming.map (·.id)).Nodup

theorem exists_carded (hstamped : ∀ row ∈ s.meetings, IsStamped row)
    (hids : s.meetings.Pairwise (·.id < ·.id)) {t : Int} (hnow : now.instant? = some t)
    (hutc : now.utc?.isSome = true) : ∃ current upcoming, Carded s now current upcoming := by
  have hnodup : (s.meetings.map (·.id)).Nodup :=
    List.pairwise_map.mpr (hids.imp fun hlt => Nat.ne_of_lt hlt)
  obtain ⟨w, hstamp, rfl⟩ := Stamp.ofMoment_of_instant? hnow hutc
  obtain ⟨current, hcurrent, -⟩ := Store.current_eq hstamped hids hstamp
  obtain ⟨upcoming, hupcoming, -⟩ := Store.upcoming_eq hstamped hids hstamp
  obtain ⟨kept, hkept, hperm⟩ := exists_sublist_of_current hcurrent
  have hnext := sublist_of_upcoming hupcoming
  exact ⟨current, upcoming, {
    current_eq := hcurrent
    upcoming_eq := hupcoming
    stored := List.forall_mem_append.mpr
      ⟨fun row hrow => hkept.subset (hperm.subset hrow), fun row hrow => hnext.subset hrow⟩
    currentIds := (hperm.map _).nodup_iff.mpr (hnodup.sublist (hkept.map _))
    upcomingIds := hnodup.sublist (hnext.map _) }⟩

namespace Carded

variable {current upcoming : List MeetingRow} {label key : String}

theorem described (h : Carded s now current upcoming)
    (hstamped : ∀ row ∈ s.meetings, IsStamped row) {t : Int} (hnow : now.instant? = some t) :
    ∀ row ∈ current ++ upcoming, ∃ text, describeWhen now row.start row.finish = .ok text := by
  intro row hrow
  obtain ⟨text, htext, -⟩ := describeWhen_says (hstamped row (h.stored row hrow)) hnow
  exact ⟨text, htext⟩

theorem nodup_keys (h : Carded s now current upcoming) :
    ((cardsOf current upcoming).map (·.2)).Nodup := by
  rw [cardsOf, List.map_append, List.map_map, List.map_map]
  refine List.nodup_append.mpr ⟨nodup_cardKey h.currentIds _, nodup_cardKey h.upcomingIds _, ?_⟩
  simp only [List.forall_mem_map]
  exact fun a _ b _ => cardKey_current_ne_upcoming

theorem exists_of_mem (h : Carded s now current upcoming)
    (hcard : (label, key) ∈ cardsOf current upcoming) :
    ∃ title, ∃ row ∈ s.meetings, key = cardKey title row ∧ label = displayName row.name row.id ∧
      ∀ v : Visitor, v.pressed = [key] → ∀ address,
        afterCards v current upcoming address =
          address.put "meeting" (Text.signedDecimal row.id) := by
  obtain ⟨hcurrent, hupcoming⟩ := List.forall_mem_append.mp h.stored
  rcases List.mem_append.mp hcard with hcard | hcard
  · obtain ⟨row, hrow, hshown⟩ := List.mem_map.mp hcard
    cases hshown
    exact ⟨"Current Meetings", row, hcurrent row hrow, rfl, rfl, fun v hpressed =>
      afterCards_current h.currentIds hrow hpressed upcoming⟩
  · obtain ⟨row, hrow, hshown⟩ := List.mem_map.mp hcard
    cases hshown
    exact ⟨"Upcoming Meetings", row, hupcoming row hrow, rfl, rfl, fun v hpressed =>
      afterCards_upcoming h.upcomingIds hrow hpressed current⟩

end Carded

theorem picked?_of_card {v : Visitor} {title : String} (h : v.pressed = [cardKey title row])
    (frame : List FrameRow) : picked? v frame = none :=
  picked?_of_unpressed (by simpa [h] using cardKey_ne_showDetails.symm) frame

theorem picked?_of_chosen {v : Visitor} {frame : List FrameRow} {id : Int} {name : String}
    (hmem : (id, name) ∈ frame.map fun r => (r.id, r.name)) (hpressed : v.pressed = ["Show details"])
    (hchosen : v.chosen = some id ∨
      v.chosen = none ∧ (frame.map fun r => (r.id, r.name)).head? = some (id, name)) :
    picked? v frame = some id := by
  cases frame with
  | nil => cases hmem
  | cons first rest =>
    rw [picked?, if_pos (by simp [hpressed])]
    rcases hchosen with hchosen | ⟨hchosen, hfirst⟩
    · rw [hchosen, Option.getD_some]
    · rw [hchosen, Option.getD_none]
      exact congrArg (some ·.1) (Option.some.inj hfirst)

/-- What the list of the meetings offers: cards that are told apart, each with the name of a stored
meeting, and a picker with the rows of the table, each of a stored meeting. Pressing a card, or
choosing an option and pressing the button of the picker, leads to the page of its meeting if a
store can be asked for the number at all. A search that is refused leaves the cards only. -/
structure Offers (zones : Timezones) (settings : Settings) (s : Store) (v : Visitor) (now : Moment)
    (address : Address) (ending : Option Ending) (p : Page) : Prop where
  keys : ((p.events.filterMap Event.card?).map (·.2)).Nodup
  cards : ∃ current upcoming, s.current now = .ok current ∧ s.upcoming now = .ok upcoming ∧
    p.events.filterMap Event.card? =
      current.map (cardOf "Current Meetings") ++ upcoming.map (cardOf "Upcoming Meetings")
  card : ∀ label key, (label, key) ∈ p.events.filterMap Event.card? →
    ∃ title, ∃ row ∈ s.meetings, key = title ++ "_" ++ Text.decimal row.id ∧
      label = displayName row.name row.id ∧
      (v.pressed = [key] → Store.isRowNumber row.id = true →
        (match listed s v with
          | .ok _ => ending = none
          | .error f => ending = some (.failed f)) ∧ Opens zones settings s row p.address)
  picker : match listed s v with
    | .ok rows => ∃ frame, rows.mapM (FrameRow.ofMeeting now) = .ok frame ∧
      p.events.filterMap Event.table? = [frame] ∧
      p.events.filterMap Event.options? =
        if frame = [] then [] else [frame.map fun r => (r.id, r.name)]
    | .error _ => p.events.filterMap Event.table? = [] ∧ p.events.filterMap Event.options? = []
  option : ∀ options ∈ p.events.filterMap Event.options?, ∀ id name, (id, name) ∈ options →
    ∃ row ∈ s.meetings, (row.id : Int) = id ∧ row.name = name ∧
      (v.pressed = ["Show details"] →
        v.chosen = some id ∨ v.chosen = none ∧ options.head? = some (id, name) →
        Store.isRowNumber row.id = true →
        ending = some .stopped ∧ Opens zones settings s row p.address)

section Page

variable {zones : Timezones} {settings : Settings} {v : Visitor} {current upcoming : List MeetingRow}
  {address : Address}
  (hcarded : Carded s now current upcoming)
  (hopens : ∀ row ∈ s.meetings, Store.isRowNumber row.id = true → ∀ address : Address,
    address.get? "meeting" = some (Text.signedDecimal row.id) → Opens zones settings s row address)
include hcarded hopens

theorem offers_refused {f : Fault} (hlisted : listed s v = .error f) :
    Offers zones settings s v now address (some (.failed f))
      ⟨shownList settings v now current upcoming (shownRefused v),
        afterCards v current upcoming address⟩ := by
  have hrefused : (shownRefused v).filterMap Event.card? = [] := rfl
  have hcards := cards_shownList settings v now current upcoming hrefused
  refine {
    keys := hcards ▸ hcarded.nodup_keys
    cards := ⟨current, upcoming, hcarded.current_eq, hcarded.upcoming_eq, hcards⟩
    card := fun label key hcard => ?_
    picker := by rw [hlisted]; exact ⟨tables_shownList .., options_shownList ..⟩
    option := fun options hoptions => ?_ }
  · obtain ⟨title, row, hrow, rfl, hlabel, hpressed⟩ := hcarded.exists_of_mem (hcards ▸ hcard)
    refine ⟨title, row, hrow, rfl, hlabel, fun hv hid => ⟨by rw [hlisted], ?_⟩⟩
    rw [hpressed v hv]
    exact hopens row hrow hid _ (Address.get?_put ..)
  · rw [options_shownList] at hoptions
    cases hoptions

theorem offers_listed {frame : List FrameRow} (hlisted : listed s v = .ok rows)
    (hframe : rows.mapM (FrameRow.ofMeeting now) = .ok frame) :
    Offers zones settings s v now address ((picked? v frame).map fun _ => .stopped)
      ⟨shownList settings v now current upcoming (shownAll v frame),
        match picked? v frame with
        | none => afterCards v current upcoming address
        | some id => (afterCards v current upcoming address).put "meeting"
            (Text.signedDecimal id)⟩ := by
  have hcards := cards_shownList settings v now current upcoming (cards_shownAll v frame)
  have hoptions := (options_shownList settings v now current upcoming).trans
    (options_shownAll v frame)
  refine {
    keys := hcards ▸ hcarded.nodup_keys
    cards := ⟨current, upcoming, hcarded.current_eq, hcarded.upcoming_eq, hcards⟩
    card := fun label key hcard => ?_
    picker := by
      rw [hlisted]
      exact ⟨frame, hframe, (tables_shownList ..).trans (tables_shownAll v frame), hoptions⟩
    option := fun options hmem id name hoption => ?_ }
  · obtain ⟨title, row, hrow, rfl, hlabel, hpressed⟩ := hcarded.exists_of_mem (hcards ▸ hcard)
    refine ⟨title, row, hrow, rfl, hlabel, fun hv hid => ?_⟩
    simp only [hlisted, picked?_of_card hv, hpressed v hv]
    exact ⟨rfl, hopens row hrow hid _ (Address.get?_put ..)⟩
  · rw [hoptions] at hmem
    split at hmem
    · cases hmem
    · rw [List.mem_singleton] at hmem
      subst hmem
      obtain ⟨row, hrow, hshown⟩ := List.mem_map.mp (map_frame hframe ▸ hoption)
      cases hshown
      have hstored := (listed_sublist hlisted).subset hrow
      refine ⟨row, hstored, rfl, rfl, fun hv hchosen hid => ?_⟩
      simp only [picked?_of_chosen hoption hv hchosen]
      exact ⟨rfl, hopens row hstored hid _ (Address.get?_put ..)⟩

end Page

theorem page_offers {zones : Timezones} {settings : Settings} {z : Offsets}
    (hzone : zones settings.timezone = some z) (hstamped : ∀ row ∈ s.meetings, IsStamped row)
    (hids : s.meetings.Pairwise (·.id < ·.id)) {t : Int} (hnow : now.instant? = some t)
    (hutc : now.utc?.isSome = true) {v : Visitor} {entryAt : String → Entry (Option Store)}
    (hentry : entryAt (Text.path (typedPath settings v)) = .file (some s)) {clock : Moment}
    {address : Address} (hlist : (address.get? "meeting").getD "" = "")
    (hpresent : presentMoment settings.timezone clock ((address.get? "now").getD "") zones =
      .ok now) :
    ∃ ending p, page settings entryAt clock v address zones = (ending, p) ∧
      Offers zones settings s v now address ending p := by
  obtain ⟨current, upcoming, hcarded⟩ := exists_carded hstamped hids hnow hutc
  have hnodup : (s.meetings.map (·.id)).Nodup :=
    List.pairwise_map.mpr (hids.imp fun hlt => Nat.ne_of_lt hlt)
  have hopens : ∀ row ∈ s.meetings, Store.isRowNumber row.id = true → ∀ address : Address,
      address.get? "meeting" = some (Text.signedDecimal row.id) →
        Opens zones settings s row address :=
    fun row hrow hid address haddress => opens_of_mem hzone hstamped hnodup hrow hid haddress
  have hdescribed := hcarded.described hstamped hnow
  cases hlisted : listed s v with
  | error f =>
    exact ⟨_, _, page_refused hentry hpresent hlist hcarded.current_eq hcarded.upcoming_eq hdescribed
      hlisted, offers_refused hcarded hopens hlisted⟩
  | ok rows =>
    obtain ⟨frame, hframe⟩ := exists_frame hnow fun row hrow =>
      hstamped row ((listed_sublist hlisted).subset hrow)
    exact ⟨_, _, page_list hentry hpresent hlist hcarded.current_eq hcarded.upcoming_eq hdescribed
      hlisted hframe, offers_listed hcarded hopens hlisted hframe⟩

end Offered
end Browser

namespace Store

open Browser

/-- Every meeting that is listed can be opened, from a card as from the picker, whatever is searched
for and at every moment that the calendar has as one of universal time. Its name stands on its card
as on its page, or its number if the name is blank. -/
theorem populated_listing {zones : Timezones} {zone path : String} {v : Visit}
    {s earlier stored : Store} {messages after : List Message}
    (h : populateOver earlier path v zone messages zones = (.ok s, after, stored))
    {settings : Settings} {z : Offsets} (hzone : zones settings.timezone = some z)
    (visitor : Visitor) (entryAt : String → Entry (Option Store))
    (hentry : entryAt (Text.path (typedPath settings visitor)) = .file (some s))
    {clock : Moment} (hclock : clock.frame ≠ .unknown) (address : Address)
    (hlist : (address.get? "meeting").getD "" = "") :
    (∃ now, presentMoment settings.timezone clock ((address.get? "now").getD "") zones = .ok now ∧
      (now.utc?.isSome = true →
        ∃ ending p, page settings entryAt clock visitor address zones = (ending, p) ∧
          Offers zones settings s visitor now address ending p)) ∧
    (∀ row : MeetingRow, row.name = "" →
      displayName row.name row.id = "Meeting " ++ Text.decimal row.id) ∧
    ∀ (w : Workbook) (o : LoadOptions) (before reported : List Message),
      (Visit.load w o).outcome before = (.ok v, reported) →
      ∀ row ∈ s.meetings, Text.trim row.name = "" → row.name = "" := by
  obtain ⟨hholds, -, -⟩ := populateOver_ok (nodup_ids_of_populateOver h) h
  refine ⟨?_, ?_, ?_⟩
  · obtain ⟨now, t, hpresent, hnow⟩ :=
      exists_presentMoment hzone hclock ((address.get? "now").getD "")
    exact ⟨now, hpresent, fun hutc =>
      page_offers hzone hholds.isStamped hholds.pairwise_id hnow hutc hentry hlist hpresent⟩
  · intro row hblank
    rw [hblank]
    rfl
  · intro w o before reported hload row hrow hblank
    obtain ⟨_, _, _, -, -, -, hdrafted, -⟩ := Visit.sheets_of_read (Visit.load_eq_ok hload)
    obtain ⟨m, hm, hrowOf⟩ := exists_of_forall₂_right hholds.meetings hrow
    have htrim := (hdrafted.trim_texts m hm).1
    rwa [← hrowOf.name, hblank, eq_comm] at htrim

theorem populated_listing_tour : ∃ p q,
    page {} (fun _ => .file (some tourStore)) tourMoment { pressed := ["Current Meetings_1"] } [] =
      (none, p) ∧
    ("Opening", "Current Meetings_1") ∈ p.events.filterMap Event.card? ∧
    page {} (fun _ => .file (some tourStore)) tourMoment {} p.address = (none, q) ∧
    Event.header "Opening" ∈ q.events := by
  obtain ⟨z, hz⟩ := Option.isSome_iff_exists.mp
    (show (Timezones.known ({} : Settings).timezone).isSome = true by decide)
  have hclock : tourMoment.frame ≠ .unknown := nofun
  obtain ⟨⟨now, hpresent, hoffers⟩, -⟩ := populated_listing (populateOver_tour {}) hz
    { pressed := ["Current Meetings_1"] } (fun _ => .file (some tourStore)) rfl hclock [] rfl
  obtain rfl : tourMoment = now := Except.ok.inj hpresent
  obtain ⟨ending, p, hpage, hoffers⟩ := hoffers (by decide)
  have hcard : ("Opening", "Current Meetings_1") ∈ p.events.filterMap Event.card? := by
    rw [show p = (page {} (fun _ => .file (some tourStore)) tourMoment
      { pressed := ["Current Meetings_1"] } []).2 by rw [hpage]]
    decide +kernel
  obtain ⟨title, row, hrow, -, hlabel, hopen⟩ := hoffers.card _ _ hcard
  have hid : Store.isRowNumber row.id = true :=
    (by decide : ∀ row ∈ tourStore.meetings, Store.isRowNumber row.id = true) row hrow
  obtain ⟨rfl, hopens⟩ := hopen rfl hid
  obtain ⟨_, q, drawn, -, hnext, -, hevents, -⟩ :=
    hopens (fun _ => .file (some tourStore)) tourMoment {} rfl hclock (by decide)
  exact ⟨p, q, hpage, hcard, hnext, by simp [hevents, ← hlabel]⟩

end Store
end SiteVisit
