import SiteVisit.Browser.View
import SiteVisit.Proofs.Browser.Drawing
import SiteVisit.Proofs.Browser.Stages

namespace SiteVisit

open Calendar

namespace Browser

open Drawing
open Store (IsStamped MeetingRow)

section Parts

variable {s : Store} {v : Visitor} {now : Moment} {t : Int} {stops : Prop}

theorem card_draws (hnow : now.instant? = some t) (title : String) {row : MeetingRow}
    (hrow : IsStamped row) : (card v now title row).Draws stops := by
  obtain ⟨text, htext, -⟩ := describeWhen_says hrow hnow
  have hcaption : (do
      let text ← ofExcept (describeWhen now row.start row.finish)
      emit (.caption (if text.isEmpty then row.time else text)) : Drawing Unit).Draws stops :=
    .bindOk htext (.emit rfl)
  refine .within (.bindButton v rfl ?_)
  split
  · exact (Draws.selectMeeting _).bind fun _ => hcaption
  · exact hcaption

theorem cards_draws (hnow : now.instant? = some t) (title : String) {rows : List MeetingRow}
    (hrows : ∀ row ∈ rows, IsStamped row) : (cards v now title rows).Draws stops := by
  refine (Draws.emit rfl).bind fun _ => ?_
  split
  · exact .emit rfl
  · exact .forM fun row hrow => card_draws hnow title (hrows row hrow)

theorem people_draws (title : String) (rows : List Store.PersonRow) :
    (people title rows).Draws stops := by
  refine (Draws.emit rfl).bind fun _ => ?_
  split
  · exact .emit rfl
  · exact .emit rfl

theorem detail_draws (hnow : now.instant? = some t) (settings : DocumentSettings)
    {d : Store.Detail} (hd : IsStamped d.meeting) :
    ∃ rest : Drawing Unit, rest.Draws stops ∧ detail settings now d =
      (emit (.header (displayName d.meeting.name d.meeting.id)) >>= fun _ => rest) := by
  obtain ⟨text, htext, -⟩ := describeWhen_says hd hnow
  have hpeople : (do
      people (plural settings.teamLabel) d.teamMembers
      people (plural settings.representativeLabel) d.representatives : Drawing Unit).Draws stops :=
    (people_draws _ _).bind fun _ => people_draws _ _
  refine ⟨_, ?_, rfl⟩
  refine (Draws.emit rfl).bind fun _ => .optional rfl fun _ => .bindOk htext (.optional rfl fun _ => ?_)
  cases d.room with
  | none => exact .optional rfl fun _ => hpeople
  | some r => exact (Draws.emit rfl).bind fun _ => .optional rfl fun _ => hpeople

theorem nowTab_draws (hstamped : ∀ row ∈ s.meetings, IsStamped row)
    (hids : s.meetings.Pairwise (·.id < ·.id)) (hnow : now.instant? = some t)
    (hutc : now.utc?.isSome = true) : (nowTab v (.ok s) now).Draws stops := by
  obtain ⟨w, hstamp, rfl⟩ := Stamp.ofMoment_of_instant? hnow hutc
  obtain ⟨found, hfound, hcurrent, -⟩ := Store.current_eq hstamped hids hstamp
  obtain ⟨next, hnext, hupcoming, -⟩ := Store.upcoming_eq hstamped hids hstamp
  refine .within (.bindOk hfound ((cards_draws hnow _ fun row hrow => ?_).bind fun _ =>
    .bindOk hnext (cards_draws hnow _ fun row hrow => ?_)))
  · exact hstamped row ((hcurrent row).mp hrow).1
  · exact hstamped row ((hupcoming row).mp hrow).1

def searched (v : Visitor) : String :=
  Text.trim (((v.typed.find? (·.1 == "search_text")).map (·.2)).getD "")

def listed (s : Store) (v : Visitor) : Except Fault (List MeetingRow) :=
  if (searched v).isEmpty then .ok s.meetings else s.searchMeetings (searched v)

theorem listed_sublist {rows : List MeetingRow} (h : listed s v = .ok rows) :
    rows.Sublist s.meetings := by
  rw [listed] at h
  split at h
  · cases h
    exact List.Sublist.refl _
  · rw [Store.searchMeetings] at h
    split at h
    · cases h
    · cases h
      exact List.filter_sublist

def shownRefused (v : Visitor) : List Event :=
  [.enter "All Meetings", .input "Search (meeting name or location)"
    (((v.typed.find? (·.1 == "search_text")).map (·.2)).getD ""), .leave "All Meetings"]

theorem isError_shownRefused (v : Visitor) : ∀ e ∈ shownRefused v, e.isError = false := by
  simp [shownRefused, Event.isError]

theorem run_allTab_refused {f : Fault} (h : listed s v = .error f) (p : Page) :
    (allTab v (.ok s) now).run.run p =
      (.error (.failed f), { p with events := p.events ++ shownRefused v }) := by
  rw [listed, searched] at h
  simp only [allTab, run_within, run_run_bind, run_input, run_ofExcept_ok, h, run_ofExcept_error,
    shownRefused, List.append_assoc, List.cons_append, List.nil_append]

theorem exists_frame (hnow : now.instant? = some t) {rows : List MeetingRow}
    (hrows : ∀ row ∈ rows, IsStamped row) :
    ∃ frame, rows.mapM (FrameRow.ofMeeting now) = .ok frame := by
  refine exists_mapM_eq_ok fun row hrow => ?_
  obtain ⟨text, htext, -⟩ := describeWhen_says (hrows row hrow) hnow
  exact ⟨_, by rw [FrameRow.ofMeeting, htext]; rfl⟩

theorem allTab_draws {rows : List MeetingRow} (hlisted : listed s v = .ok rows)
    (hrows : ∀ row ∈ rows, IsStamped row) (hnow : now.instant? = some t) :
    (allTab v (.ok s) now).Draws ("Show details" ∈ v.pressed) := by
  obtain ⟨frame, hframe⟩ := exists_frame hnow hrows
  refine .within (.bindInput v rfl (.bindOk rfl (.bindOk hlisted (.bindOk hframe
    ((Draws.emit rfl).bind fun _ => (Draws.emit rfl).bind fun _ =>
      (Draws.emit rfl).bind fun _ => ?_)))))
  cases frame with
  | nil => exact .pure ()
  | cons first rest =>
    refine (Draws.emit rfl).bind fun _ => .bindButton v rfl ?_
    split
    · next hpressed =>
      exact (Draws.selectMeeting _).bind fun _ => .again (List.contains_iff_mem.mp hpressed)
    · exact .pure ()

end Parts

section Whole

variable {s : Store} {v : Visitor} {now : Moment} {t : Int}

def typedPath (settings : Settings) (v : Visitor) : String :=
  ((v.typed.find? (·.1 == "db_path")).map (·.2)).getD settings.storePath

def heading (settings : Settings) (v : Visitor) (now : Moment) : List Event := [
  .windowTitle "Visit Browser", .title (settings.documents.visitTitle ++ " Browser"),
  .sideHeader "Data Source", .sideInput "SQLite path" (typedPath settings v),
  .sideCaption ("Now: " ++ now.isoMinutes)]

theorem isError_heading (settings : Settings) (v : Visitor) (now : Moment) :
    ∀ e ∈ heading settings v now, e.isError = false := by
  simp [heading, Event.isError]

theorem instant?_of_frame {m : Moment} (h : m.frame ≠ .unknown) : ∃ t, m.instant? = some t := by
  rcases m with ⟨w, _ | o | z⟩
  · exact absurd rfl h
  · exact ⟨_, rfl⟩
  · exact ⟨_, rfl⟩

theorem exists_overrideBy (text : String) {frame : Wall → Frame} (h : ∀ w, frame w ≠ .unknown) :
    ∃ found, IsoText.overrideBy text (some frame) = some found ∧
      ∀ m ∈ found, m.frame ≠ .unknown := by
  simp only [IsoText.overrideBy]
  split
  · exact ⟨none, rfl, by simp⟩
  · split
    · exact ⟨none, rfl, by simp⟩
    · next m _ =>
      rcases m with ⟨w, _ | o | z⟩
      · exact ⟨_, rfl, fun m hm => Option.some.inj hm ▸ h w⟩
      · exact ⟨_, rfl, fun m hm => Option.some.inj hm ▸ nofun⟩
      · exact ⟨_, rfl, fun m hm => Option.some.inj hm ▸ nofun⟩

theorem exists_presentMoment {zones : Timezones} {timezone : String} {z : Offsets}
    (hzone : zones timezone = some z) {clock : Moment} (hclock : clock.frame ≠ .unknown)
    (asked : String) : ∃ now t, presentMoment timezone clock asked zones = .ok now ∧
      now.instant? = some t := by
  have hframe : ∀ w, Frame.fixed (z.ahead w) ≠ .unknown := fun _ => nofun
  obtain ⟨found, hfound, hknown⟩ := exists_overrideBy asked hframe
  have hnow : (found.getD clock).frame ≠ .unknown := by
    cases found with
    | none => exact hclock
    | some m => exact hknown m rfl
  obtain ⟨t, ht⟩ := instant?_of_frame hnow
  exact ⟨_, t, by rw [presentMoment, hzone, Option.map_some, hfound], ht⟩

theorem page_eq {zones : Timezones} {settings : Settings} {entryAt : String → Entry (Option Store)}
    {clock : Moment} {address : Address}
    (hentry : entryAt (Text.path (typedPath settings v)) = .file (some s))
    (hnow : presentMoment settings.timezone clock ((address.get? "now").getD "") zones = .ok now) :
    page settings entryAt clock v address zones =
      ended ((contents settings.documents v (.ok s) now ((address.get? "meeting").getD "")).run.run
        ⟨heading settings v now, address⟩) := by
  rw [typedPath] at hentry
  simp only [page, draw, run_run_bind, run_emit, run_input, run_run_get, hnow, run_ofExcept_ok,
    hentry, Store.atEntry, heading, typedPath]
  rfl

theorem contents_list (hstamped : ∀ row ∈ s.meetings, IsStamped row)
    (hids : s.meetings.Pairwise (·.id < ·.id)) (hnow : now.instant? = some t)
    (hutc : now.utc?.isSome = true) {rows : List MeetingRow} (hlisted : listed s v = .ok rows)
    (settings : DocumentSettings) :
    (contents settings v (.ok s) now "").Draws ("Show details" ∈ v.pressed) :=
  (nowTab_draws hstamped hids hnow hutc).bind fun _ =>
    allTab_draws hlisted (fun row hrow => hstamped row ((listed_sublist hlisted).subset hrow)) hnow

theorem contents_refused (hstamped : ∀ row ∈ s.meetings, IsStamped row)
    (hids : s.meetings.Pairwise (·.id < ·.id)) (hnow : now.instant? = some t)
    (hutc : now.utc?.isSome = true) {f : Fault} (hlisted : listed s v = .error f)
    (settings : DocumentSettings) {p : Page} (hp : ∀ e ∈ p.events, e.isError = false) :
    (ended ((contents settings v (.ok s) now "").run.run p)).1 = some (.failed f) ∧
      ∀ e ∈ (ended ((contents settings v (.ok s) now "").run.run p)).2.events,
        e.isError = false := by
  have hnowTab : (nowTab v (.ok s) now).Draws False := nowTab_draws hstamped hids hnow hutc
  obtain ⟨drawn, address, hdrawn, ⟨⟨⟩, hrun⟩ | ⟨hfalse, -⟩⟩ := hnowTab p
  · have hend : (contents settings v (.ok s) now "").run.run p =
        (.error (.failed f), ⟨p.events ++ drawn ++ shownRefused v, address⟩) := by
      change (nowTab v (.ok s) now >>= fun _ => allTab v (.ok s) now).run.run p = _
      rw [run_run_bind, hrun]
      exact run_allTab_refused hlisted _
    rw [hend]
    exact ⟨rfl, List.forall_mem_append.mpr
      ⟨List.forall_mem_append.mpr ⟨hp, hdrawn⟩, isError_shownRefused v⟩⟩
  · exact hfalse.elim

theorem contents_outOfRange (s : Store) (v : Visitor) (hnow : now.instant? = some t)
    (hutc : now.utc? = none) (settings : DocumentSettings) (p : Page) :
    (ended ((contents settings v (.ok s) now "").run.run p)).1 =
      some (.failed (.defect .outOfRange)) := by
  have hcurrent : s.current now = .error (.defect .outOfRange) := by
    rw [Store.current, Stamp.ofMoment, hnow, hutc]
    rfl
  have hbind : (Except.ok s : Except Fault Store).bind (·.current now) = s.current now := rfl
  change (ended ((nowTab v (.ok s) now >>= fun _ => allTab v (.ok s) now).run.run p)).1 = _
  simp only [nowTab, run_run_bind, run_within, hbind, hcurrent, run_ofExcept_error, ended]

/-- What becomes of a page that asks for a meeting, below what is shown already. -/
inductive Answers (s : Store) (asked : String) (shown : List Event) :
    Option Ending → List Event → Prop
  | invalid : wholeNumber? asked = none →
    Answers s asked shown none (shown ++ [.error ("Invalid meeting id: " ++ asked)])
  | outOfRange {id : Int} : wholeNumber? asked = some id → Store.isRowNumber id = false →
    Answers s asked shown (some (.failed (.defect .outOfRange))) shown
  | missing {id : Int} : wholeNumber? asked = some id → Store.isRowNumber id = true →
    (∀ row ∈ s.meetings, (row.id : Int) ≠ id) →
    Answers s asked shown none
      (shown ++ [.error ("Meeting " ++ Text.signedDecimal id ++ " not found.")])
  | found {id : Int} {row : MeetingRow} {drawn : List Event} : wholeNumber? asked = some id →
    Store.isRowNumber id = true → row ∈ s.meetings → (row.id : Int) = id →
    (∀ e ∈ drawn, e.isError = false) → Answers s asked shown none
      (shown ++ [.header (displayName row.name row.id)] ++ drawn)

theorem run_detailOf (settings : DocumentSettings) (id : Int) (p : Page) :
    (detailOf settings (.ok s) now id).run.run p =
      match s.detail? id with
      | .error f => (.error (.failed f), p)
      | .ok none =>
        (emit (.error ("Meeting " ++ Text.signedDecimal id ++ " not found."))).run.run p
      | .ok (some d) => (detail settings now d).run.run p := by
  have hbind : (Except.ok s : Except Fault Store).bind (·.detail? id) = s.detail? id := rfl
  rw [detailOf, hbind, run_run_bind]
  rcases s.detail? id with _ | _ | _ <;> rfl

theorem run_selectedMeeting {asked : String} {id : Int} (hnumber : wholeNumber? asked = some id)
    (settings : DocumentSettings) (p : Page) :
    (selectedMeeting settings (.ok s) now asked).run.run p =
      match (detailOf settings (.ok s) now id).run.run p with
      | (.ok a, p) => (.ok a, p)
      | (.error (.failed f), p) =>
        if f.isBadValue then (invalidMeeting asked).run.run p else (.error (.failed f), p)
      | (.error .stopped, p) => (.error .stopped, p) := by
  simp only [selectedMeeting, hnumber, run_tryCatch]
  rcases (detailOf settings (.ok s) now id).run.run p with ⟨(f | _) | _, _⟩
  · rfl
  · dsimp only
    split <;> rfl
  · rfl

theorem selectedMeeting_answers (hstamped : ∀ row ∈ s.meetings, IsStamped row)
    (hnow : now.instant? = some t) (settings : DocumentSettings) (asked : String) (p : Page) :
    ∃ ending q, ended ((selectedMeeting settings (.ok s) now asked).run.run p) = (ending, q) ∧
      Answers s asked p.events ending q.events := by
  cases hnumber : wholeNumber? asked with
  | none =>
    refine ⟨none, ⟨p.events ++ [.error ("Invalid meeting id: " ++ asked)], p.address⟩, ?_,
      .invalid hnumber⟩
    simp only [selectedMeeting, hnumber, invalidMeeting, run_emit, ended]
  | some id =>
    rw [run_selectedMeeting hnumber, run_detailOf]
    by_cases hid : Store.isRowNumber id = true
    · rw [Store.detail?, if_pos hid]
      cases hfind : s.meetings.find? fun m => (m.id : Int) == id with
      | none =>
        refine ⟨none, ⟨p.events ++ [.error ("Meeting " ++ Text.signedDecimal id ++ " not found.")],
          p.address⟩, rfl, .missing hnumber hid fun row hrow => ?_⟩
        simpa using List.find?_eq_none.mp hfind row hrow
      | some row =>
        have hrow := List.mem_of_find?_eq_some hfind
        have hheader : (s.detailOf row).meeting = row := rfl
        obtain ⟨rest, hrest, hshown⟩ : ∃ rest : Drawing Unit, rest.Draws False ∧ _ :=
          detail_draws hnow settings (d := s.detailOf row) (hstamped row hrow)
        obtain ⟨drawn, address, hdrawn, ⟨⟨⟩, hrun⟩ | ⟨hfalse, -⟩⟩ :=
          hrest ⟨p.events ++ [.header (displayName row.name row.id)], p.address⟩
        · refine ⟨none, ⟨p.events ++ [.header (displayName row.name row.id)] ++ drawn, address⟩, ?_,
            .found hnumber hid hrow (by simpa using List.find?_some hfind) hdrawn⟩
          simp only [Option.map_some, hshown, run_run_bind, run_emit, hheader, hrun, ended]
        · exact hfalse.elim
    · rw [Store.detail?, if_neg hid]
      exact ⟨_, p, rfl, .outOfRange hnumber (Bool.eq_false_iff.mpr hid)⟩

theorem contents_back (s : Store) (now : Moment) (hpressed : "Back to meetings" ∈ v.pressed)
    (settings : DocumentSettings) {asked : String} (hasked : asked ≠ "") (p : Page) :
    ∃ q, ended ((contents settings v (.ok s) now asked).run.run p) = (some .stopped, q) ∧
      q.address = p.address.erase "meeting" := by
  have hne : ¬ asked.isEmpty = true := fun h => hasked (String.isEmpty_iff.mp h)
  have hcontains := List.contains_iff_mem.mpr hpressed
  refine ⟨⟨p.events ++ [.sideButton "Back to meetings"] ++ [.again], p.address.erase "meeting"⟩,
    ?_, rfl⟩
  rw [contents, if_neg hne, run_run_bind, run_button]
  dsimp only
  rw [if_pos hcontains]
  rfl

theorem run_contents_selected (hpressed : "Back to meetings" ∉ v.pressed)
    (settings : DocumentSettings) {asked : String} (hasked : asked ≠ "") (p : Page) :
    (contents settings v (.ok s) now asked).run.run p =
      (selectedMeeting settings (.ok s) now asked).run.run
        { p with events := p.events ++ [.sideButton "Back to meetings"] } := by
  have hne : ¬ asked.isEmpty = true := fun h => hasked (String.isEmpty_iff.mp h)
  have hcontains : ¬ v.pressed.contains "Back to meetings" = true :=
    fun h => hpressed (List.contains_iff_mem.mp h)
  rw [contents, if_neg hne, run_run_bind, run_button]
  dsimp only
  rw [if_neg hcontains]

theorem ended_of_draws {x : Drawing Unit} {stops : Prop} (h : x.Draws stops) {p : Page}
    (hp : ∀ e ∈ p.events, e.isError = false) :
    ((ended (x.run.run p)).1 = none ∨ stops ∧ (ended (x.run.run p)).1 = some .stopped) ∧
      ∀ e ∈ (ended (x.run.run p)).2.events, e.isError = false := by
  obtain ⟨drawn, address, hdrawn, ⟨⟨⟩, hrun⟩ | ⟨hstops, hrun⟩⟩ := h p
  · rw [hrun]
    exact ⟨.inl rfl, List.forall_mem_append.mpr ⟨hp, hdrawn⟩⟩
  · rw [hrun]
    exact ⟨.inr ⟨hstops, rfl⟩, List.forall_mem_append.mpr ⟨hp, hdrawn⟩⟩

end Whole
end Browser

namespace Store

open Browser

/-- The page of a store that has been populated is drawn for every address, unless the address asks
for a number that no store can have, or for the list of the meetings at a moment that the calendar
has not as one of universal time, or the list is searched for a term that the engine refuses. A
meeting that is asked for is shown, or else it is said that there is none or that its number is
none. -/
theorem populated_page {zones : Timezones} {zone path : String} {v : Visit}
    {s earlier stored : Store} {messages after : List Message}
    (h : populateOver earlier path v zone messages zones = (.ok s, after, stored))
    {settings : Settings} {z : Offsets} (hzone : zones settings.timezone = some z)
    (visitor : Visitor) (entryAt : String → Entry (Option Store))
    (hentry : entryAt (Text.path (typedPath settings visitor)) = .file (some s))
    {clock : Moment} (hclock : clock.frame ≠ .unknown) (address : Address) :
    ∃ now, presentMoment settings.timezone clock ((address.get? "now").getD "") zones = .ok now ∧
      ∀ asked ending p, (address.get? "meeting").getD "" = asked →
        page settings entryAt clock visitor address zones = (ending, p) →
        (asked = "" → now.utc?.isSome = true →
          (match listed s visitor with
            | .ok _ => ending = none ∨ "Show details" ∈ visitor.pressed ∧ ending = some .stopped
            | .error f => ending = some (.failed f)) ∧
          ∀ e ∈ p.events, e.isError = false) ∧
        (asked = "" → now.utc? = none → ending = some (.failed (.defect .outOfRange))) ∧
        (asked ≠ "" → "Back to meetings" ∈ visitor.pressed →
          ending = some .stopped ∧ p.address = address.erase "meeting") ∧
        (asked ≠ "" → "Back to meetings" ∉ visitor.pressed →
          Answers s asked (heading settings visitor now ++ [.sideButton "Back to meetings"]) ending
            p.events) := by
  obtain ⟨hholds, -, -⟩ := populateOver_ok (nodup_ids_of_populateOver h) h
  have hstamped := hholds.isStamped
  obtain ⟨now, t, hpresent, hnow⟩ :=
    exists_presentMoment hzone hclock ((address.get? "now").getD "")
  refine ⟨now, hpresent, fun asked ending p hasked hpage => ?_⟩
  rw [page_eq hentry hpresent, hasked] at hpage
  refine ⟨?_, ?_, fun hne hpressed => ?_, fun hne hpressed => ?_⟩
  · rintro rfl hutc
    have hheading := isError_heading settings visitor now
    cases hlisted : listed s visitor with
    | ok rows =>
      have hdraws : (contents settings.documents visitor (.ok s) now "").Draws
          ("Show details" ∈ visitor.pressed) :=
        contents_list hstamped hholds.pairwise_id hnow hutc hlisted settings.documents
      have hend := ended_of_draws hdraws (p := ⟨heading settings visitor now, address⟩) hheading
      rwa [hpage] at hend
    | error f =>
      have hend := contents_refused hstamped hholds.pairwise_id hnow hutc hlisted
        settings.documents (p := ⟨heading settings visitor now, address⟩) hheading
      rwa [hpage] at hend
  · rintro rfl hutc
    have hfails := contents_outOfRange s visitor hnow hutc settings.documents
      ⟨heading settings visitor now, address⟩
    rwa [hpage] at hfails
  · obtain ⟨q, hend, haddress⟩ := contents_back s now hpressed settings.documents hne
      ⟨heading settings visitor now, address⟩
    cases hpage.symm.trans hend
    exact ⟨rfl, haddress⟩
  · rw [run_contents_selected hpressed settings.documents hne] at hpage
    obtain ⟨ending', q, hend, hanswers⟩ :=
      selectedMeeting_answers hstamped hnow settings.documents asked
        ⟨heading settings visitor now ++ [.sideButton "Back to meetings"], address⟩
    cases hpage.symm.trans hend
    exact hanswers

theorem populated_page_tour : ∃ p, page {} (fun _ => .file (some tourStore)) tourMoment {}
      [("meeting", "7"), ("now", "2025-06-02T09:30")] = (none, p) ∧
    Event.error "Meeting 7 not found." ∈ p.events := by
  obtain ⟨z, hz⟩ := Option.isSome_iff_exists.mp
    (show (Timezones.known ({} : Settings).timezone).isSome = true by decide)
  have hclock : tourMoment.frame ≠ .unknown := nofun
  obtain ⟨now, -, hpages⟩ := populated_page (populateOver_tour {}) hz {}
    (fun _ => .file (some tourStore)) rfl hclock [("meeting", "7"), ("now", "2025-06-02T09:30")]
  rcases hpage : page {} (fun _ => .file (some tourStore)) tourMoment {}
    [("meeting", "7"), ("now", "2025-06-02T09:30")] with ⟨ending, p⟩
  obtain ⟨-, -, -, hanswers⟩ := hpages "7" ending p rfl hpage
  have hseven : wholeNumber? "7" = some 7 := by decide
  have hanswers := hanswers (by decide) (by decide)
  generalize hevents : p.events = events at hanswers
  cases hanswers with
  | invalid hnumber => cases hseven.symm.trans hnumber
  | outOfRange hnumber hid =>
    cases hseven.symm.trans hnumber
    exact absurd hid (by decide)
  | missing hnumber =>
    cases hseven.symm.trans hnumber
    exact ⟨p, rfl, hevents ▸ List.mem_append_right _ (List.mem_singleton.mpr (by decide))⟩
  | found hnumber _ hrow hid =>
    cases hseven.symm.trans hnumber
    exact absurd hid ((by decide : ∀ row ∈ tourStore.meetings, (row.id : Int) ≠ 7) _ hrow)

/-- A number of 20 digits, and the first moment of the calendar as clocks show it that are ahead of
universal time. -/
theorem page_outOfRange :
    (∃ after, populateOver {} "visit.db" tour "UTC" [] = (.ok tourStore, after, tourStore)) ∧
    (page {} (fun _ => .file (some tourStore)) tourMoment {}
      [("meeting", "99999999999999999999"), ("now", "2025-06-02T09:30:00Z")]).1 =
        some (.failed (.defect .outOfRange)) ∧
    (page {} (fun _ => .file (some tourStore)) tourMoment {}
      [("now", "0001-01-01T00:00:00+14:00")]).1 = some (.failed (.defect .outOfRange)) :=
  ⟨⟨_, populateOver_tour {}⟩, rfl, rfl⟩

end Store
end SiteVisit
