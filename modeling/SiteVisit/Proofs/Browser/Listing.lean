import SiteVisit.Proofs.Browser.Pages
import SiteVisit.Proofs.Text.Decimal

namespace SiteVisit

open Calendar

namespace Browser

open Drawing
open Store (IsStamped MeetingRow)

section Shown

variable {s : Store} {v : Visitor} {now : Moment} {title : String} {row : MeetingRow}
  {rows : List MeetingRow}

def cardKey (title : String) (row : MeetingRow) : String := title ++ "_" ++ Text.decimal row.id

def shownCard (now : Moment) (title : String) (row : MeetingRow) : List Event :=
  let text := (describeWhen now row.start row.finish).toOption.getD ""
  [.enter "container", .button (displayName row.name row.id) (some (cardKey title row)),
    .caption (if text.isEmpty then row.time else text), .leave "container"]

def shownCards (now : Moment) (title : String) (rows : List MeetingRow) : List Event :=
  .markdown ("### " ++ title) ::
    if rows.isEmpty then [.markdown "_None_"] else rows.flatMap (shownCard now title)

def afterCard (v : Visitor) (title : String) (address : Address) (row : MeetingRow) : Address :=
  if v.pressed.contains (cardKey title row) then
    address.put "meeting" (Text.signedDecimal row.id)
  else address

@[simp] theorem run_selectMeeting (id : Int) (p : Page) :
    (selectMeeting id).run.run p =
      (.ok (), { p with address := p.address.put "meeting" (Text.signedDecimal id) }) := rfl

@[simp] theorem run_again {α : Type} (p : Page) :
    (again : Drawing α).run.run p = (.error .stopped, { p with events := p.events ++ [.again] }) :=
  rfl

theorem run_card (hrow : ∃ text, describeWhen now row.start row.finish = .ok text) (p : Page) :
    (card v now title row).run.run p =
      (.ok (), ⟨p.events ++ shownCard now title row, afterCard v title p.address row⟩) := by
  obtain ⟨text, htext⟩ := hrow
  have hshown : shownCard now title row = [.enter "container",
      .button (displayName row.name row.id) (some (cardKey title row)),
      .caption (if text.isEmpty then row.time else text), .leave "container"] := by
    rw [shownCard, htext]
    rfl
  cases hpressed : v.pressed.contains (cardKey title row) with
  | true =>
    have hkey : v.pressed.contains (title ++ "_" ++ Text.decimal row.id) = true := hpressed
    simp only [card, run_within, run_run_bind, run_button, hkey, ↓reduceIte, run_selectMeeting,
      htext, run_ofExcept_ok, run_emit, hshown, afterCard, hpressed, List.append_assoc]
    rfl
  | false =>
    have hkey : v.pressed.contains (title ++ "_" ++ Text.decimal row.id) = false := hpressed
    simp only [card, run_within, run_run_bind, run_button, hkey, Bool.false_eq_true, ↓reduceIte,
      htext, run_ofExcept_ok, run_emit, hshown, afterCard, hpressed, List.append_assoc]
    rfl

theorem run_forM_card (v : Visitor) (title : String)
    (hrows : ∀ row ∈ rows, ∃ text, describeWhen now row.start row.finish = .ok text) (p : Page) :
    (rows.forM (card v now title)).run.run p =
      (.ok (), ⟨p.events ++ rows.flatMap (shownCard now title),
        rows.foldl (afterCard v title) p.address⟩) := by
  induction rows generalizing p with
  | nil =>
    rw [List.flatMap_nil, List.append_nil]
    rfl
  | cons row rows ih =>
    obtain ⟨hrow, hrows⟩ := List.forall_mem_cons.mp hrows
    change (card v now title row >>= fun _ => rows.forM (card v now title)).run.run p = _
    rw [run_run_bind, run_card hrow]
    dsimp only
    rw [ih hrows, List.flatMap_cons, List.foldl_cons, List.append_assoc]

theorem run_cards (v : Visitor) (title : String)
    (hrows : ∀ row ∈ rows, ∃ text, describeWhen now row.start row.finish = .ok text) (p : Page) :
    (cards v now title rows).run.run p =
      (.ok (), ⟨p.events ++ shownCards now title rows,
        rows.foldl (afterCard v title) p.address⟩) := by
  rw [cards, run_run_bind, run_emit, shownCards]
  dsimp only
  cases rows with
  | nil => simp
  | cons row rows =>
    rw [if_neg (by simp), if_neg (by simp), run_forM_card v title hrows]
    simp

def shownNow (now : Moment) (current upcoming : List MeetingRow) : List Event :=
  .enter "Now" :: (shownCards now "Current Meetings" current ++
    shownCards now "Upcoming Meetings" upcoming) ++ [.leave "Now"]

def afterCards (v : Visitor) (current upcoming : List MeetingRow) (address : Address) : Address :=
  upcoming.foldl (afterCard v "Upcoming Meetings")
    (current.foldl (afterCard v "Current Meetings") address)

theorem run_nowTab {current upcoming : List MeetingRow} (v : Visitor)
    (hcurrent : s.current now = .ok current) (hupcoming : s.upcoming now = .ok upcoming)
    (hrows : ∀ row ∈ current ++ upcoming, ∃ text,
      describeWhen now row.start row.finish = .ok text) (p : Page) :
    (nowTab v (.ok s) now).run.run p =
      (.ok (), ⟨p.events ++ shownNow now current upcoming,
        afterCards v current upcoming p.address⟩) := by
  have hbindCurrent : (Except.ok s : Except Fault Store).bind (·.current now) = .ok current :=
    hcurrent
  have hbindUpcoming : (Except.ok s : Except Fault Store).bind (·.upcoming now) = .ok upcoming :=
    hupcoming
  have hrows := List.forall_mem_append.mp hrows
  simp only [nowTab, run_within, hbindCurrent, hbindUpcoming, run_run_bind, run_ofExcept_ok,
    run_cards v _ hrows.1, run_cards v _ hrows.2, shownNow, afterCards]
  simp

def picked? (v : Visitor) : List FrameRow → Option Int
  | [] => none
  | first :: _ =>
    if v.pressed.contains "Show details" then some (v.chosen.getD first.id) else none

theorem picked?_of_unpressed (h : "Show details" ∉ v.pressed) (frame : List FrameRow) :
    picked? v frame = none := by
  cases frame with
  | nil => rfl
  | cons first rest => exact if_neg (mt List.contains_iff_mem.mp h)

def shownPicker (v : Visitor) (frame : List FrameRow) : List Event :=
  (if frame = [] then [] else [.choice "Open meeting" (frame.map fun r => (r.id, r.name)),
    .button "Show details" none]) ++ if (picked? v frame).isSome then [.again] else []

def shownAll (v : Visitor) (frame : List FrameRow) : List Event :=
  [.enter "All Meetings", .input "Search (meeting name or location)"
      (((v.typed.find? (·.1 == "search_text")).map (·.2)).getD ""),
    .markdown ("### Meetings (" ++ Text.decimal frame.length ++ " rows)"),
    .download "Download CSV" (frameCsv frame) "meetings.csv" "text/csv", .table frame] ++
  shownPicker v frame ++ [.leave "All Meetings"]

theorem run_allTab {frame : List FrameRow} (hlisted : listed s v = .ok rows)
    (hframe : rows.mapM (FrameRow.ofMeeting now) = .ok frame) (p : Page) :
    (allTab v (.ok s) now).run.run p =
      match picked? v frame with
      | none => (.ok (), ⟨p.events ++ shownAll v frame, p.address⟩)
      | some id => (.error .stopped, ⟨p.events ++ shownAll v frame,
          p.address.put "meeting" (Text.signedDecimal id)⟩) := by
  rw [listed, searched] at hlisted
  simp only [allTab, run_within, run_run_bind, run_input, run_ofExcept_ok, hlisted, hframe,
    run_emit]
  cases frame with
  | nil =>
    simp only [run_run_pure, shownAll, List.append_assoc]
    rfl
  | cons first rest =>
    cases hpressed : v.pressed.contains "Show details" with
    | true =>
      simp only [run_run_bind, run_emit, run_button, hpressed, ↓reduceIte, run_selectMeeting,
        run_again, shownAll, shownPicker, picked?, List.append_assoc]
      rfl
    | false =>
      simp only [run_run_bind, run_emit, run_button, hpressed, Bool.false_eq_true, ↓reduceIte,
        run_run_pure, shownAll, shownPicker, picked?, List.append_assoc]
      rfl

def shownList (settings : Settings) (v : Visitor) (now : Moment)
    (current upcoming : List MeetingRow) (all : List Event) : List Event :=
  heading settings v now ++ shownNow now current upcoming ++ all

section Page

variable {zones : Timezones} {settings : Settings} {entryAt : String → Entry (Option Store)}
  {clock : Moment} {address : Address} {current upcoming : List MeetingRow}
  (hentry : entryAt (Text.path (typedPath settings v)) = .file (some s))
  (hnow : presentMoment settings.timezone clock ((address.get? "now").getD "") zones = .ok now)
  (hmeeting : (address.get? "meeting").getD "" = "")
  (hcurrent : s.current now = .ok current) (hupcoming : s.upcoming now = .ok upcoming)
  (hrows : ∀ row ∈ current ++ upcoming, ∃ text,
    describeWhen now row.start row.finish = .ok text)
include hentry hnow hmeeting hcurrent hupcoming hrows

theorem page_all : page settings entryAt clock v address zones =
    ended ((allTab v (.ok s) now).run.run
      ⟨heading settings v now ++ shownNow now current upcoming,
        afterCards v current upcoming address⟩) := by
  rw [page_eq hentry hnow, hmeeting]
  change ended ((nowTab v (.ok s) now >>= fun _ => allTab v (.ok s) now).run.run _) = _
  rw [run_run_bind, run_nowTab v hcurrent hupcoming hrows]

theorem page_list {frame : List FrameRow} (hlisted : listed s v = .ok rows)
    (hframe : rows.mapM (FrameRow.ofMeeting now) = .ok frame) :
    page settings entryAt clock v address zones =
      ((picked? v frame).map fun _ => .stopped,
        ⟨shownList settings v now current upcoming (shownAll v frame),
          match picked? v frame with
          | none => afterCards v current upcoming address
          | some id => (afterCards v current upcoming address).put "meeting"
              (Text.signedDecimal id)⟩) := by
  rw [page_all hentry hnow hmeeting hcurrent hupcoming hrows, run_allTab hlisted hframe]
  cases picked? v frame <;> rfl

theorem page_refused {f : Fault} (hlisted : listed s v = .error f) :
    page settings entryAt clock v address zones =
      (some (.failed f), ⟨shownList settings v now current upcoming (shownRefused v),
        afterCards v current upcoming address⟩) := by
  rw [page_all hentry hnow hmeeting hcurrent hupcoming hrows, run_allTab_refused hlisted]
  rfl

end Page

end Shown

def Event.card? : Event → Option (String × String)
  | .button label (some key) => some (label, key)
  | _ => none

def Event.table? : Event → Option (List FrameRow)
  | .table frame => some frame
  | _ => none

def Event.options? : Event → Option (List (Int × String))
  | .choice _ options => some options
  | _ => none

section Widgets

variable (settings : Settings) (v : Visitor) (now : Moment) (current upcoming : List MeetingRow)
  (frame : List FrameRow) {all : List Event}

def cardOf (title : String) (row : MeetingRow) : String × String :=
  (displayName row.name row.id, cardKey title row)

theorem cards_shownCards (title : String) (rows : List MeetingRow) :
    (shownCards now title rows).filterMap Event.card? = rows.map (cardOf title) := by
  cases rows with
  | nil => rfl
  | cons row rows =>
    have hcard (row : MeetingRow) :
        (shownCard now title row).filterMap Event.card? = [cardOf title row] := rfl
    rw [shownCards, if_neg (by simp), List.filterMap_cons_none rfl, List.filterMap_flatMap]
    simp only [hcard]
    exact List.map_eq_flatMap.symm

theorem plain_shownCards (title : String) (rows : List MeetingRow) :
    ∀ e ∈ shownCards now title rows, e.table? = none ∧ e.options? = none := by
  rw [shownCards]
  refine List.forall_mem_cons.mpr ⟨⟨rfl, rfl⟩, ?_⟩
  split
  · exact List.forall_mem_singleton.mpr ⟨rfl, rfl⟩
  · intro e he
    obtain ⟨row, -, he⟩ := List.mem_flatMap.mp he
    simp only [shownCard, List.mem_cons, List.not_mem_nil, or_false] at he
    rcases he with rfl | rfl | rfl | rfl <;> exact ⟨rfl, rfl⟩

theorem plain_shownNow :
    ∀ e ∈ shownNow now current upcoming, e.table? = none ∧ e.options? = none := by
  rw [shownNow]
  refine List.forall_mem_append.mpr ⟨List.forall_mem_cons.mpr ⟨⟨rfl, rfl⟩, ?_⟩,
    List.forall_mem_singleton.mpr ⟨rfl, rfl⟩⟩
  exact List.forall_mem_append.mpr
    ⟨plain_shownCards now _ current, plain_shownCards now _ upcoming⟩

def cardsOf (current upcoming : List MeetingRow) : List (String × String) :=
  current.map (cardOf "Current Meetings") ++ upcoming.map (cardOf "Upcoming Meetings")

theorem cards_shownList (hall : all.filterMap Event.card? = []) :
    (shownList settings v now current upcoming all).filterMap Event.card? =
      cardsOf current upcoming := by
  simp [shownList, heading, shownNow, Event.card?, List.filterMap_cons, cards_shownCards, hall,
    cardsOf]

theorem tables_shownList :
    (shownList settings v now current upcoming all).filterMap Event.table? =
      all.filterMap Event.table? := by
  have hnow : (shownNow now current upcoming).filterMap Event.table? = [] :=
    List.filterMap_eq_nil_iff.mpr fun e he => (plain_shownNow now current upcoming e he).1
  simp [shownList, heading, Event.table?, List.filterMap_cons, hnow]

theorem options_shownList :
    (shownList settings v now current upcoming all).filterMap Event.options? =
      all.filterMap Event.options? := by
  have hnow : (shownNow now current upcoming).filterMap Event.options? = [] :=
    List.filterMap_eq_nil_iff.mpr fun e he => (plain_shownNow now current upcoming e he).2
  simp [shownList, heading, Event.options?, List.filterMap_cons, hnow]

theorem cards_shownAll : (shownAll v frame).filterMap Event.card? = [] := by
  have hpicker : (shownPicker v frame).filterMap Event.card? = [] := by
    rw [shownPicker]
    split <;> split <;> rfl
  simp [shownAll, Event.card?, List.filterMap_cons, hpicker]

theorem tables_shownAll : (shownAll v frame).filterMap Event.table? = [frame] := by
  have hpicker : (shownPicker v frame).filterMap Event.table? = [] := by
    rw [shownPicker]
    split <;> split <;> rfl
  simp [shownAll, Event.table?, List.filterMap_cons, hpicker]

theorem options_shownAll : (shownAll v frame).filterMap Event.options? =
    if frame = [] then [] else [frame.map fun r => (r.id, r.name)] := by
  have hpicker : (shownPicker v frame).filterMap Event.options? =
      if frame = [] then [] else [frame.map fun r => (r.id, r.name)] := by
    rw [shownPicker]
    split <;> split <;> rfl
  simp [shownAll, Event.options?, List.filterMap_cons, hpicker]

end Widgets

section Keys

variable {title : String} {a b : MeetingRow}

theorem cardKey_inj : cardKey title a = cardKey title b ↔ a.id = b.id := by
  simp only [cardKey, String.append_assoc, String.append_right_inj, Text.decimal_inj]

theorem nodup_cardKey {rows : List MeetingRow} (h : (rows.map (·.id)).Nodup) (title : String) :
    (rows.map (cardKey title)).Nodup :=
  List.pairwise_map.mpr ((List.pairwise_map.mp h).imp fun hne hkey => hne (cardKey_inj.mp hkey))

theorem cardKey_current_ne_upcoming :
    cardKey "Current Meetings" a ≠ cardKey "Upcoming Meetings" b := by
  intro h
  have hchars := congrArg String.toList h
  simp [cardKey] at hchars

theorem cardKey_ne_showDetails : cardKey title a ≠ "Show details" := by
  intro h
  have hmem : '_' ∈ (cardKey title a).toList := by simp [cardKey]
  rw [h] at hmem
  exact absurd hmem (by decide)

end Keys
end Browser
end SiteVisit
