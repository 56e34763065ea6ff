import SiteVisit.Browser.When
import SiteVisit.Proofs.Calendar.Relative
import SiteVisit.Proofs.Store.Moments

namespace SiteVisit

open Calendar

abbrev Text.BeginsWith (start text : String) : Prop := start.toList <+: text.toList

namespace Browser

open Text (BeginsWith)

/-- What is to be said of a meeting at a moment, by its start and its end if they are known. -/
inductive Says (t : Int) : Option Int → Option Int → String → Prop
  | startsIn {start : Int} {finish : Option Int} : t < start →
    Says t (some start) finish ("Starts in " ++ durationText (start - t))
  | ended {start : Option Int} {finish : Int} : (∀ x ∈ start, x ≤ t) → finish < t →
    Says t start (some finish) ("Ended " ++ durationText (t - finish) ++ " ago")
  | ongoing {start finish : Int} : start ≤ t → t ≤ finish →
    Says t (some start) (some finish) "Ongoing"
  | startedAgo {start : Int} : start ≤ t →
    Says t (some start) none (durationText (t - start) ++ " ago")
  | endsIn {finish : Int} : t ≤ finish →
    Says t none (some finish) ("Ends in " ++ durationText (finish - t))
  | nothing : Says t none none ""

def stage (text : String) : Nat :=
  if BeginsWith "Starts in" text then 0 else if BeginsWith "Ended" text then 2 else 1

section Words

variable {t t' : Int} {start finish : Option Int} {text text' : String}

theorem Says.startsIn_iff (h : Says t start finish text) :
    BeginsWith "Starts in" text ↔ ∃ x ∈ start, t < x := by
  cases h with
  | startsIn h => simpa [BeginsWith] using h
  | ended h => simpa [BeginsWith] using h
  | ongoing h => simpa [BeginsWith] using h
  | @startedAgo x h =>
    have hno := not_beginsWith_durationText "Starts in" rfl (by decide) (t - x) " ago"
    simpa [hno] using h
  | endsIn => simp [BeginsWith]
  | nothing => simp [BeginsWith]

theorem Says.ended_iff (h : Says t start finish text) :
    BeginsWith "Ended" text ↔ (∀ x ∈ start, x ≤ t) ∧ ∃ y ∈ finish, y < t := by
  cases h with
  | startsIn h => simpa [BeginsWith] using fun hle => absurd h (Int.not_lt.mpr hle)
  | ended h hlt => simpa [BeginsWith] using ⟨h, hlt⟩
  | ongoing _ h => simpa [BeginsWith] using fun _ => h
  | @startedAgo x =>
    have hno := not_beginsWith_durationText "Ended" rfl (by decide) (t - x) " ago"
    simp [hno]
  | endsIn h => simpa [BeginsWith] using h
  | nothing => simp [BeginsWith]

theorem Says.ongoing_iff (h : Says t start finish text) :
    text = "Ongoing" ↔ ∃ x y, start = some x ∧ finish = some y ∧ x ≤ t ∧ t ≤ y := by
  cases h with
  | startsIn h =>
    simpa [← String.toList_inj] using fun _ _ hle => absurd h (Int.not_lt.mpr hle)
  | ended _ h => simpa [← String.toList_inj] using fun _ _ _ => h
  | ongoing hstart hfinish => simpa using ⟨hstart, hfinish⟩
  | @startedAgo x =>
    have hno := not_beginsWith_durationText "Ongoing" rfl (by decide) (t - x) " ago"
    have hne : durationText (t - x) ++ " ago" ≠ "Ongoing" := fun heq => hno (heq ▸ List.prefix_rfl)
    simp [hne]
  | endsIn => simp [← String.toList_inj]
  | nothing => simp [← String.toList_inj]

theorem Says.stage_le (h : Says t start finish text) (h' : Says t' start finish text')
    (hle : t ≤ t') : stage text ≤ stage text' := by
  have hstart : BeginsWith "Starts in" text' → BeginsWith "Starts in" text := by
    rw [h.startsIn_iff, h'.startsIn_iff]
    rintro ⟨x, hx, hlt⟩
    exact ⟨x, hx, Int.lt_of_le_of_lt hle hlt⟩
  have hend : BeginsWith "Ended" text → BeginsWith "Ended" text' := by
    rw [h.ended_iff, h'.ended_iff]
    rintro ⟨hstarted, y, hy, hlt⟩
    exact ⟨fun x hx => Int.le_trans (hstarted x hx) hle, y, hy, Int.lt_of_lt_of_le hlt hle⟩
  by_cases hstarts : BeginsWith "Starts in" text
  · rw [stage, if_pos hstarts]
    exact Nat.zero_le _
  · have hstarts' : ¬ BeginsWith "Starts in" text' := fun hbegins => hstarts (hstart hbegins)
    by_cases hended : BeginsWith "Ended" text
    · rw [stage, stage, if_neg hstarts, if_neg hstarts', if_pos hended, if_pos (hend hended)]
    · rw [stage, stage, if_neg hstarts, if_neg hstarts', if_neg hended]
      split <;> decide

end Words

section Described

variable {now : Moment} {t : Int}

theorem says_ofDistances (t : Int) (start finish : Option Int) :
    Says t start finish
      ((Phase.ofDistances (start.map (· - t)) (finish.map (t - ·))).text?.getD "") := by
  have hlies := Phase.lies_ofDistances t start finish
  generalize Phase.ofDistances (start.map (· - t)) (finish.map (t - ·)) = p at hlies ⊢
  cases hlies with
  | startsIn hlt => exact .startsIn hlt
  | ended hstarted hlt => exact .ended hstarted hlt
  | ongoing hstarted hle => exact .ongoing hstarted hle
  | startedAgo hstarted => exact .startedAgo hstarted
  | endsIn hle => exact .endsIn hle
  | unknown => exact .nothing

theorem comparable_utc (hnow : now.instant? = some t) (w : Wall) :
    now.Comparable ⟨w, .fixed 0⟩ := by
  refine .aware (fun hframe => ?_) nofun (fun z _ hfixed => nomatch hfixed)
  simp [Moment.instant?, Moment.offset?, hframe] at hnow

theorem phase?_utc (hnow : now.instant? = some t) (start finish : Option Wall) :
    phase? now (start.map (⟨·, .fixed 0⟩)) (finish.map (⟨·, .fixed 0⟩)) =
      some (.ofDistances (start.map (·.micros - t)) (finish.map (t - ·.micros))) := by
  have hposition : now.position = t := by rw [Moment.position, hnow, Option.getD_some]
  have hutc (w : Wall) : Moment.position ⟨w, .fixed 0⟩ = w.micros := by
    simp [Moment.position, Moment.instant?, Moment.offset?]
  rw [phase?_eq (by simpa using fun w _ => comparable_utc hnow w)
    (by simpa using fun w _ => comparable_utc hnow w), Option.map_map, Option.map_map]
  simp only [Function.comp_def, hposition, hutc]

theorem exists_walls {text : Option String} (h : ∀ stamp ∈ text, ∃ w, stamp = Stamp.ofWall w) :
    ∃ w : Option Wall, Stamp.read text = .ok (w.map (⟨·, .fixed 0⟩)) ∧
      Stamp.instant? text = w.map (·.micros) := by
  rcases Store.none_or_ofWall h with rfl | ⟨w, rfl⟩
  · exact ⟨none, rfl, rfl⟩
  · exact ⟨some w, by simp, by simp⟩

theorem describeWhen_says {row : Store.MeetingRow} (hstamped : Store.IsStamped row)
    (hnow : now.instant? = some t) :
    ∃ text, describeWhen now row.start row.finish = .ok text ∧
      Says t (Stamp.instant? row.start) (Stamp.instant? row.finish) text := by
  obtain ⟨start, hreadStart, hstart⟩ := exists_walls hstamped.start
  obtain ⟨finish, hreadFinish, hfinish⟩ := exists_walls hstamped.finish
  have hsaid := says_ofDistances t (start.map (·.micros)) (finish.map (·.micros))
  rw [hstart, hfinish]
  refine ⟨_, ?_, hsaid⟩
  simp only [describeWhen, phase, hreadStart, hreadFinish, ok_bind, phase?_utc hnow, pure_eq_ok,
    Option.map_map, Function.comp_def]

end Described

section Order

open Store (MeetingRow)

variable {t : Int} {rows : List MeetingRow} {row first : MeetingRow} {text : String}

def StartsEarlier (a b : MeetingRow) : Prop :=
  ∃ x y, Stamp.instant? a.start = some x ∧ Stamp.instant? b.start = some y ∧ x < y

/-- The meeting of the row starts after a moment, and none of the others does so before it. -/
def StartsFirst (t : Int) (rows : List MeetingRow) (row : MeetingRow) : Prop :=
  ∃ x, Stamp.instant? row.start = some x ∧ t < x ∧
    ∀ other ∈ rows, ∀ y, Stamp.instant? other.start = some y → t < y → x ≤ y

theorem exists_startsFirst (h : ∃ row ∈ rows, ∃ x ∈ Stamp.instant? row.start, t < x) :
    ∃ row ∈ rows, StartsFirst t rows row := by
  let starts := (rows.filterMap fun row => Stamp.instant? row.start).filter (t < ·)
  have hmem (x : Int) :
      x ∈ starts ↔ (∃ row ∈ rows, Stamp.instant? row.start = some x) ∧ t < x := by
    rw [List.mem_filter, List.mem_filterMap, decide_eq_true_eq]
  obtain ⟨row, hrow, x, hx, hlt⟩ := h
  have hne : starts ≠ [] := List.ne_nil_of_mem ((hmem x).mpr ⟨⟨row, hrow, hx⟩, hlt⟩)
  obtain ⟨least, hleast⟩ := Option.ne_none_iff_exists'.mp (mt List.min?_eq_none_iff.mp hne)
  obtain ⟨hin, hle⟩ := List.min?_eq_some_iff.mp hleast
  obtain ⟨⟨first, hfirst, hstart⟩, hlater⟩ := (hmem least).mp hin
  exact ⟨first, hfirst, least, hstart, hlater, fun other hother y hy hlt =>
    hle y ((hmem y).mpr ⟨⟨other, hother, hy⟩, hlt⟩)⟩

theorem StartsFirst.startsIn (h : StartsFirst t rows row)
    (hsaid : Says t (Stamp.instant? row.start) (Stamp.instant? row.finish) text) :
    BeginsWith "Starts in" text := by
  obtain ⟨x, hx, hlt, -⟩ := h
  exact hsaid.startsIn_iff.mpr ⟨x, hx, hlt⟩

/-- What is said to start and does not start first starts later. -/
theorem StartsFirst.startsEarlier (h : StartsFirst t rows first) (hrow : row ∈ rows)
    (hsaid : Says t (Stamp.instant? row.start) (Stamp.instant? row.finish) text)
    (hbegins : BeginsWith "Starts in" text) (hnot : ¬ StartsFirst t rows row) :
    StartsEarlier first row := by
  obtain ⟨y, hy, hlt⟩ := hsaid.startsIn_iff.mp hbegins
  obtain ⟨x, hx, -, hleast⟩ := h
  refine ⟨x, y, hx, hy, Int.lt_iff_le_and_ne.mpr ⟨hleast row hrow y hy hlt, ?_⟩⟩
  rintro rfl
  exact hnot ⟨x, hy, hlt, hleast⟩

end Order
end Browser

namespace Store

open Browser
open Text (BeginsWith)

/-- What is said of the meetings of a store agrees with its answers about a moment, and as time goes
on nothing is said of a meeting that belongs to an earlier stage. -/
theorem populated_stages {zones : Timezones} {zone path : String} {v : Visit}
    {s earlier stored : Store} {messages after : List Message}
    (h : populateOver earlier path v zone messages zones = (.ok s, after, stored)) {now : Moment}
    {t : Int} (hnow : now.instant? = some t) (hutc : now.utc?.isSome = true) :
    (∃ found next, s.current now = .ok found ∧ s.upcoming now = .ok next ∧
      (∀ row ∈ found, row ∈ s.meetings ∧ row ∉ next) ∧ (∀ row ∈ next, row ∈ s.meetings) ∧
      (∀ row ∈ s.meetings, ∃ text, describeWhen now row.start row.finish = .ok text ∧
        Says t (Stamp.instant? row.start) (Stamp.instant? row.finish) text ∧
        (row ∈ found ↔ text = "Ongoing") ∧
        (row ∈ next → BeginsWith "Starts in" text) ∧
        (BeginsWith "Starts in" text → row ∉ next → ∀ first ∈ next, StartsEarlier first row)) ∧
      (next = [] ↔ ∀ row ∈ s.meetings, ∀ text, describeWhen now row.start row.finish = .ok text →
        ¬ BeginsWith "Starts in" text)) ∧
    ∀ (later : Moment) (t' : Int), later.instant? = some t' → t ≤ t' → ∀ row ∈ s.meetings,
      ∃ text text', describeWhen now row.start row.finish = .ok text ∧
        describeWhen later row.start row.finish = .ok text' ∧ stage text ≤ stage text' := by
  obtain ⟨hholds, -, -⟩ := populateOver_ok (nodup_ids_of_populateOver h) h
  have hstamped := hholds.isStamped
  refine ⟨?_, fun later t' hlater hle row hrow => ?_⟩
  · obtain ⟨w, hstamp, rfl⟩ := Stamp.ofMoment_of_instant? hnow hutc
    obtain ⟨found, hfound, hcurrent, -⟩ := current_eq hstamped hholds.pairwise_id hstamp
    obtain ⟨next, hnext, hupcoming, -⟩ := upcoming_eq hstamped hholds.pairwise_id hstamp
    have hfirst (row : MeetingRow) (hrow : row ∈ next) : StartsFirst w.micros s.meetings row :=
      ((hupcoming row).mp hrow).2
    refine ⟨found, next, hfound, hnext, fun row hrow => ?_, fun row hrow =>
      ((hupcoming row).mp hrow).1, fun row hrow => ?_, ?_, fun hnone => ?_⟩
    · obtain ⟨hmem, x, y, hx, -, hle, -⟩ := (hcurrent row).mp hrow
      refine ⟨hmem, fun hrow' => ?_⟩
      obtain ⟨x', hx', hlt, -⟩ := hfirst row hrow'
      obtain rfl := Option.some.inj (hx.symm.trans hx')
      exact Int.not_lt.mpr hle hlt
    · obtain ⟨text, htext, hsaid⟩ := describeWhen_says (hstamped row hrow) hnow
      refine ⟨text, htext, hsaid, ?_, fun hrow' => (hfirst row hrow').startsIn hsaid, ?_⟩
      · rw [hcurrent, and_iff_right hrow, hsaid.ongoing_iff]
      · intro hbegins hnot first hmem
        exact (hfirst first hmem).startsEarlier hrow hsaid hbegins fun h =>
          hnot ((hupcoming row).mpr ⟨hrow, h⟩)
    · rintro rfl row hrow text htext hbegins
      obtain ⟨_, htext', hsaid⟩ := describeWhen_says (hstamped row hrow) hnow
      obtain rfl := Except.ok.inj (htext.symm.trans htext')
      obtain ⟨first, hmem⟩ := exists_startsFirst ⟨row, hrow, hsaid.startsIn_iff.mp hbegins⟩
      exact List.not_mem_nil ((hupcoming first).mpr hmem)
    · refine List.eq_nil_iff_forall_not_mem.mpr fun row hrow => ?_
      have hmem := ((hupcoming row).mp hrow).1
      obtain ⟨text, htext, hsaid⟩ := describeWhen_says (hstamped row hmem) hnow
      exact hnone row hmem text htext ((hfirst row hrow).startsIn hsaid)
  · obtain ⟨text, htext, hsaid⟩ := describeWhen_says (hstamped row hrow) hnow
    obtain ⟨text', htext', hsaid'⟩ := describeWhen_says (hstamped row hrow) hlater
    exact ⟨text, text', htext, htext', hsaid.stage_le hsaid' hle⟩

theorem populated_stages_tour : ∃ found, tourStore.current tourMoment = .ok found ∧
    ∃ row ∈ found, row.name = "Opening" ∧
      describeWhen tourMoment row.start row.finish = .ok "Ongoing" := by
  have hnow : tourMoment.instant? = some 63884539800500000 := by decide
  obtain ⟨⟨found, next, hfound, -, -, -, hsaid, -⟩, -⟩ :=
    populated_stages (populateOver_tour {}) hnow (by decide)
  have hopening := List.head_mem (by decide : tourStore.meetings ≠ [])
  obtain ⟨text, htext, -, hiff, -⟩ := hsaid _ hopening
  have hongoing : describeWhen tourMoment (some "2025-06-02T09:00:00+00:00")
      (some "2025-06-02T10:00:00+00:00") = .ok "Ongoing" := eq_ok_of_toOption (by decide)
  exact ⟨found, hfound, _, hiff.mpr (Except.ok.inj (htext.symm.trans hongoing)), rfl, hongoing⟩

end Store
end SiteVisit
