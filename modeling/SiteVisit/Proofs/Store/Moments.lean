import SiteVisit.Proofs.Calendar.Reading
import SiteVisit.Proofs.Store.Readback

namespace SiteVisit

open Calendar

namespace Stamp

def instant? (text : Option String) : Option Int :=
  match read text with
  | .ok (some m) => m.instant?
  | _ => none

def localInstant? (day : Option Date) (clock : Option TimeOfDay) (zone : String)
    (zones : Timezones) : Option Int :=
  match day, clock with
  | some d, some t => (zones zone).map fun z => (Wall.at d t).micros - z.ahead (Wall.at d t)
  | _, _ => none

@[simp] theorem instant?_none : instant? none = none := rfl

@[simp] theorem read_ofWall (w : Wall) : read (some (ofWall w)) = .ok (some ⟨w, .fixed 0⟩) := by
  have hsome : (some (ofWall w)).filter (!·.isEmpty) = some (ofWall w) := by
    have hne : (ofWall w).isEmpty = false := by
      rw [Bool.eq_false_iff, ne_eq, String.isEmpty_iff, ← String.toList_inj, toList_ofWall]
      simp
    simp [Option.filter, hne]
  simp [read, hsome, IsoText.parse_ofWall]

@[simp] theorem instant?_ofWall (w : Wall) : instant? (some (ofWall w)) = some w.micros := by
  simp [instant?, Moment.instant?, Moment.offset?]

theorem ofMoment_of_instant? {now : Moment} {t : Int} (hnow : now.instant? = some t)
    (hutc : now.utc?.isSome = true) : ∃ w, ofMoment now = .ok (ofWall w) ∧ w.micros = t := by
  obtain ⟨w, hw⟩ := Option.isSome_iff_exists.mp hutc
  refine ⟨w, by rw [ofMoment, hnow, hw], ?_⟩
  rw [Moment.utc?, hnow] at hw
  exact Wall.micros_of_ofMicros? hw

theorem ofMoment_ok {m : Moment} {text : String} (h : ofMoment m = .ok text) :
    ∃ w, text = ofWall w ∧ m.instant? = some w.micros := by
  rw [ofMoment] at h
  cases hinstant : m.instant? with
  | none =>
    rw [hinstant] at h
    cases h
  | some t =>
    cases hutc : m.utc? with
    | none =>
      rw [hinstant, hutc] at h
      cases h
    | some w =>
      rw [hinstant, hutc] at h
      rw [Moment.utc?, hinstant] at hutc
      exact ⟨w, (Except.ok.inj h).symm, congrArg some (Wall.micros_of_ofMicros? hutc).symm⟩

theorem ofLocal_ok {day : Option Date} {clock : Option TimeOfDay} {zone : String}
    {zones : Timezones} {text : Option String} (h : ofLocal day clock zone zones = .ok text) :
    (∀ stamp ∈ text, ∃ w, stamp = ofWall w) ∧
      (text.isSome = (day.isSome && clock.isSome)) ∧
      instant? text = localInstant? day clock zone zones := by
  cases day with
  | none =>
    cases h
    exact ⟨nofun, rfl, rfl⟩
  | some d =>
    cases clock with
    | none =>
      cases h
      exact ⟨nofun, rfl, rfl⟩
    | some t =>
      cases hzone : zones zone with
      | none => simp [ofLocal, hzone] at h
      | some z =>
        simp only [ofLocal, hzone] at h
        cases hmoment : ofMoment ⟨Wall.at d t, .fixed (z.ahead (Wall.at d t))⟩ with
        | error e =>
          rw [hmoment] at h
          cases h
        | ok stamp =>
          rw [hmoment] at h
          cases h
          obtain ⟨w, rfl, hw⟩ := ofMoment_ok hmoment
          refine ⟨fun stamp hstamp => ⟨w, (Option.some.inj hstamp).symm⟩, rfl, ?_⟩
          rw [instant?_ofWall, localInstant?, hzone, ← hw]
          rfl

end Stamp

section Stable

variable {α : Type} {le : α → α → Bool}

theorem pairwise_mergeSort_stable (htrans : ∀ a b c, le a b → le b c → le a c)
    (htotal : ∀ a b, le a b || le b a) {R : α → α → Prop} {items : List α}
    (h : items.Pairwise R) :
    (items.mergeSort le).Pairwise fun a b => le a b = true ∧ (le b a = true → R a b) := by
  rw [List.pairwise_iff_forall_sublist]
  intro a b hsub
  have hle : le a b = true :=
    List.pairwise_iff_forall_sublist.mp (List.pairwise_mergeSort htrans htotal items) hsub
  refine ⟨hle, fun hge => ?_⟩
  let same (c : α) : Bool := le a c && le c a
  have hself (c : α) : le c c = true := by simpa using htotal c c
  have hsame : (items.filter same).Pairwise fun c d => le c d = true := by
    rw [List.pairwise_filter]
    apply List.pairwise_of_forall
    intro c d hc hd
    simp only [same, Bool.and_eq_true] at hc hd
    exact htrans c a d hc.2 hd.1
  have hfilter : (items.filter same).Sublist ((items.mergeSort le).filter same) := by
    have := (List.sublist_mergeSort htrans htotal hsame List.filter_sublist).filter same
    simpa only [List.filter_filter, Bool.and_self] using this
  have heq : items.filter same = (items.mergeSort le).filter same :=
    hfilter.eq_of_length ((List.mergeSort_perm items le).symm.filter same).length_eq
  have hpair : [a, b].Sublist (items.filter same) := by
    have := hsub.filter same
    rw [← heq] at this
    simpa [same, hself, hle, hge] using this
  exact List.pairwise_iff_forall_sublist.mp (h.sublist List.filter_sublist) hpair

end Stable

namespace Store

section Distinct

variable {α ρ : Type} {t : Table ρ} {row : α → Nat → ρ}

theorem noClash_of_writeEach {items : List α} {s s' : Session} {ids : List Nat}
    (h : (writeEach t row items).outcome s = (.ok ids, s')) :
    (∀ a ∈ items, ∀ other ∈ t.rows s.tables, ∃ id, t.clash (row a id) other = false) ∧
      items.Pairwise fun a b => ∃ id id', t.clash (row b id') (row a id) = false := by
  induction items generalizing s ids with
  | nil => exact ⟨nofun, .nil⟩
  | cons a rest ih =>
    obtain ⟨id, s₁, henter, h⟩ := Writing.bind_ok.mp h
    obtain ⟨others, s₂, hrest, h⟩ := Writing.bind_ok.mp h
    cases h
    obtain ⟨hno, -, hadds⟩ := Writing.enter_ok henter
    obtain ⟨hthere, hpairwise⟩ := ih hrest
    rw [hadds.rows] at hthere
    refine ⟨List.forall_mem_cons.mpr ⟨fun other hother => ⟨_, hno other hother⟩, ?_⟩,
      List.pairwise_cons.mpr ⟨?_, hpairwise⟩⟩
    · exact fun b hb other hother => hthere b hb other (List.mem_append_left _ hother)
    · exact fun b hb => ⟨id, hthere b hb _ (List.mem_append_right _ (.head _))⟩

variable {zones : Timezones} {zone path : String} {v : Visit} {s earlier stored : Store}
  {messages after : List Message}

theorem nodup_ids_of_populateOver
    (h : populateOver earlier path v zone messages zones = (.ok s, after, stored)) :
    (v.participants.map (·.id)).Nodup := by
  rcases hfill : (fill v zone zones).outcome { messages } with ⟨_ | pairs, s'⟩
  · rw [populateOver, outcome_write, hfill] at h
    cases h
  · obtain ⟨rooms, s₁, -, h⟩ := Writing.bind_ok.mp hfill
    obtain ⟨people, s₂, hpeople, -⟩ := Writing.bind_ok.mp h
    refine List.pairwise_map.mpr ((noClash_of_writeEach hpeople).2.imp ?_)
    rintro p q ⟨id, id', hno⟩ heq
    exact ne_of_beq_false hno heq.symm

end Distinct

structure KeepsTimes (zones : Timezones) (zone : String) (m : Meeting) (row : MeetingRow) :
    Prop where
  start : Stamp.instant? row.start = Stamp.localInstant? m.day m.start zone zones
  finish : Stamp.instant? row.finish = Stamp.localInstant? m.day m.finish zone zones
  hasStart : row.start.isSome = (m.day.isSome && m.start.isSome)
  hasFinish : row.finish.isSome = (m.day.isSome && m.finish.isSome)

def StartsBefore (a b : MeetingRow) : Prop :=
  ∃ x y, Stamp.instant? a.start = some x ∧ Stamp.instant? b.start = some y ∧
    (x < y ∨ x = y ∧ a.id < b.id)

structure IsStamped (row : MeetingRow) : Prop where
  start : ∀ text ∈ row.start, ∃ w, text = Stamp.ofWall w
  finish : ∀ text ∈ row.finish, ∃ w, text = Stamp.ofWall w

section Stamped

variable {s : Store} {now : Moment} {t : Int} {w : Wall}

theorem isStamped_of_isRowOf {zones : Timezones} {zone : String} {rooms : Numbers} {m : Meeting}
    {row : MeetingRow} (h : IsRowOf zones zone rooms m row) : IsStamped row :=
  ⟨(Stamp.ofLocal_ok h.start).1, (Stamp.ofLocal_ok h.finish).1⟩

theorem Holds.isStamped {zones : Timezones} {zone : String} {v : Visit}
    (h : Holds zones zone v s) : ∀ row ∈ s.meetings, IsStamped row := by
  intro row hrow
  obtain ⟨m, -, hisRow⟩ := exists_of_forall₂_right h.meetings hrow
  exact isStamped_of_isRowOf hisRow

theorem keepsTimes_of_isRowOf {zones : Timezones} {zone : String} {rooms : Numbers} {m : Meeting}
    {row : MeetingRow} (h : IsRowOf zones zone rooms m row) : KeepsTimes zones zone m row :=
  let start := Stamp.ofLocal_ok h.start
  let finish := Stamp.ofLocal_ok h.finish
  ⟨start.2.2, finish.2.2, start.2.1, finish.2.1⟩

theorem ofWall_le_iff (a b : Wall) : Stamp.ofWall a ≤ Stamp.ofWall b ↔ a.micros ≤ b.micros := by
  rw [← String.not_lt, Stamp.ofWall_lt_iff, Int.not_lt]

theorem none_or_ofWall {text : Option String} (h : ∀ stamp ∈ text, ∃ w, stamp = Stamp.ofWall w) :
    text = none ∨ ∃ w, text = some (Stamp.ofWall w) := by
  cases text with
  | none => exact .inl rfl
  | some stamp =>
    obtain ⟨w, rfl⟩ := h stamp rfl
    exact .inr ⟨w, rfl⟩

theorem isSome_instant? {text : Option String} (h : ∀ stamp ∈ text, ∃ w, stamp = Stamp.ofWall w) :
    (Stamp.instant? text).isSome = text.isSome := by
  rcases none_or_ofWall h with rfl | ⟨w, rfl⟩ <;> simp

theorem exists_ofWall_of_instant? {text : Option String}
    (h : ∀ stamp ∈ text, ∃ w, stamp = Stamp.ofWall w) {x : Int} (hx : Stamp.instant? text = some x) :
    ∃ w, text = some (Stamp.ofWall w) ∧ w.micros = x := by
  rcases none_or_ofWall h with rfl | ⟨w, rfl⟩
  · cases hx
  · exact ⟨w, rfl, Option.some.inj ((Stamp.instant?_ofWall w).symm.trans hx)⟩

theorem isCurrent_iff {row : MeetingRow} (h : IsStamped row) :
    (match row.start, row.finish with
      | some start, some finish => start ≤ Stamp.ofWall w && Stamp.ofWall w ≤ finish
      | _, _ => false) = true ↔
      ∃ x y, Stamp.instant? row.start = some x ∧ Stamp.instant? row.finish = some y ∧
        x ≤ w.micros ∧ w.micros ≤ y := by
  rcases none_or_ofWall h.start with hstart | ⟨a, hstart⟩
  · simp [hstart]
  · rcases none_or_ofWall h.finish with hfinish | ⟨b, hfinish⟩
    · simp [hstart, hfinish]
    · simp [hstart, hfinish, ofWall_le_iff]

theorem current_eq (hstamped : ∀ row ∈ s.meetings, IsStamped row)
    (hids : s.meetings.Pairwise (·.id < ·.id)) (hnow : Stamp.ofMoment now = .ok (Stamp.ofWall w)) :
    ∃ found, s.current now = .ok found ∧
      (∀ row, row ∈ found ↔ row ∈ s.meetings ∧
        ∃ x y, Stamp.instant? row.start = some x ∧ Stamp.instant? row.finish = some y ∧
          x ≤ w.micros ∧ w.micros ≤ y) ∧
      found.Pairwise StartsBefore := by
  rw [current, hnow, ok_bind]
  refine ⟨_, rfl, fun row => ?_, ?_⟩
  · rw [List.mem_mergeSort, List.mem_filter]
    exact and_congr_right fun hrow => isCurrent_iff (hstamped row hrow)
  · refine List.Pairwise.imp_of_mem (fun {a b} ha hb hab => ?_) (pairwise_mergeSort_stable
      (fun a b c hab hbc => by simpa using String.le_trans (by simpa using hab) (by simpa using hbc))
      (fun a b => by simpa using String.le_total _ _) (hids.sublist List.filter_sublist))
    rw [List.mem_mergeSort, List.mem_filter] at ha hb
    obtain ⟨x, -, hx, -⟩ := (isCurrent_iff (hstamped a ha.1)).mp ha.2
    obtain ⟨y, -, hy, -⟩ := (isCurrent_iff (hstamped b hb.1)).mp hb.2
    refine ⟨x, y, hx, hy, ?_⟩
    obtain ⟨wa, hwa, rfl⟩ := exists_ofWall_of_instant? (hstamped a ha.1).start hx
    obtain ⟨wb, hwb, rfl⟩ := exists_ofWall_of_instant? (hstamped b hb.1).start hy
    simp only [hwa, hwb, Option.getD_some, decide_eq_true_eq, ofWall_le_iff] at hab
    omega

theorem earliest_eq_none {texts : List String} : earliest texts = none ↔ texts = [] := by
  cases texts <;> simp [earliest]

theorem earliest_spec {texts : List String} {least : String} (h : earliest texts = some least) :
    least ∈ texts ∧ ∀ text ∈ texts, least ≤ text := by
  cases texts with
  | nil => cases h
  | cons first rest =>
    cases h
    induction rest using List.reverseRecOn with
    | nil => simp
    | append_singleton rest text ih =>
      obtain ⟨hmem, hle⟩ := ih
      rw [List.foldl_append, List.foldl_cons, List.foldl_nil, ← List.cons_append]
      split
      · next hlt =>
        refine ⟨List.mem_append_right _ (.head _), fun other hother => ?_⟩
        rcases List.mem_append.mp hother with hother | hother
        · exact String.le_trans (String.not_lt.mp (String.lt_asymm hlt)) (hle other hother)
        · exact List.mem_singleton.mp hother ▸ String.le_refl _
      · next hnot =>
        refine ⟨List.mem_append_left _ hmem, fun other hother => ?_⟩
        rcases List.mem_append.mp hother with hother | hother
        · exact hle other hother
        · rw [List.mem_singleton.mp hother]
          exact String.not_lt.mp hnot

theorem upcoming_eq (hstamped : ∀ row ∈ s.meetings, IsStamped row)
    (hids : s.meetings.Pairwise (·.id < ·.id)) (hnow : Stamp.ofMoment now = .ok (Stamp.ofWall w)) :
    ∃ next, s.upcoming now = .ok next ∧
      (∀ row, row ∈ next ↔ row ∈ s.meetings ∧
        ∃ x, Stamp.instant? row.start = some x ∧ w.micros < x ∧
          ∀ other ∈ s.meetings, ∀ y, Stamp.instant? other.start = some y → w.micros < y → x ≤ y) ∧
      next.Pairwise (·.id < ·.id) := by
  have hlater (text : String) :
      text ∈ (s.meetings.filterMap (·.start)).filter (Stamp.ofWall w < ·) ↔
        ∃ row ∈ s.meetings, ∃ a, row.start = some (Stamp.ofWall a) ∧ text = Stamp.ofWall a ∧
          w.micros < a.micros := by
    rw [List.mem_filter, List.mem_filterMap, decide_eq_true_eq]
    constructor
    · rintro ⟨⟨row, hrow, hstart⟩, hlt⟩
      obtain ⟨a, rfl⟩ := (hstamped row hrow).start text hstart
      exact ⟨row, hrow, a, hstart, rfl, (Stamp.ofWall_lt_iff w a).mp hlt⟩
    · rintro ⟨row, hrow, a, hstart, rfl, hlt⟩
      exact ⟨⟨row, hrow, hstart⟩, (Stamp.ofWall_lt_iff w a).mpr hlt⟩
  -- Texts of universal time are in the order of their moments, so the least text is the next start.
  rw [upcoming, hnow, ok_bind]
  cases hearliest : earliest ((s.meetings.filterMap (·.start)).filter (Stamp.ofWall w < ·)) with
  | none =>
    refine ⟨[], rfl, fun row => ?_, .nil⟩
    simp only [List.not_mem_nil, false_iff]
    rintro ⟨hrow, x, hx, hlt, -⟩
    obtain ⟨a, hstart, rfl⟩ := exists_ofWall_of_instant? (hstamped row hrow).start hx
    have hmem := (hlater _).mpr ⟨row, hrow, a, hstart, rfl, hlt⟩
    rw [earliest_eq_none.mp hearliest] at hmem
    cases hmem
  | some least =>
    obtain ⟨hmem, hle⟩ := earliest_spec hearliest
    obtain ⟨first, hfirst, a, hstart, rfl, hlt⟩ := (hlater least).mp hmem
    refine ⟨_, rfl, fun row => ?_, hids.sublist List.filter_sublist⟩
    rw [List.mem_filter, beq_iff_eq]
    refine and_congr_right fun hrow => ?_
    constructor
    · intro hrowStart
      refine ⟨a.micros, by rw [hrowStart, Stamp.instant?_ofWall], hlt, ?_⟩
      intro other hother y hy hltOther
      obtain ⟨b, hb, rfl⟩ := exists_ofWall_of_instant? (hstamped other hother).start hy
      exact (ofWall_le_iff a b).mp (hle _ ((hlater _).mpr ⟨other, hother, b, hb, rfl, hltOther⟩))
    · rintro ⟨x, hx, hltRow, hleRow⟩
      obtain ⟨b, hb, rfl⟩ := exists_ofWall_of_instant? (hstamped row hrow).start hx
      have hba := hleRow first hfirst a.micros (by rw [hstart, Stamp.instant?_ofWall]) hlt
      have hab := hle _ ((hlater _).mpr ⟨row, hrow, b, hb, rfl, hltRow⟩)
      rw [hb, String.le_antisymm ((ofWall_le_iff b a).mpr hba) hab]

end Stamped

/-- In a store that has been populated with a visit the stored times stand for those of the
meetings, and comparing their texts finds the meetings that comparing the moments finds: those that
a moment lies in, by their start and then by their numbers, and those that start first after it, by
their numbers. -/
theorem populated_moments {zones : Timezones} {zone path : String} {v : Visit}
    {s earlier stored : Store} {messages after : List Message}
    (h : populateOver earlier path v zone messages zones = (.ok s, after, stored)) {now : Moment}
    {t : Int} (hnow : now.instant? = some t) (hutc : now.utc?.isSome = true) :
    List.Forall₂ (KeepsTimes zones zone) v.meetings s.meetings ∧
    (∀ row ∈ s.meetings, (Stamp.instant? row.start).isSome = row.start.isSome ∧
      (Stamp.instant? row.finish).isSome = row.finish.isSome) ∧
    (∃ found, s.current now = .ok found ∧
      (∀ row, row ∈ found ↔ row ∈ s.meetings ∧
        ∃ x y, Stamp.instant? row.start = some x ∧ Stamp.instant? row.finish = some y ∧
          x ≤ t ∧ t ≤ y) ∧
      found.Pairwise StartsBefore) ∧
    ∃ next, s.upcoming now = .ok next ∧
      (∀ row, row ∈ next ↔ row ∈ s.meetings ∧
        ∃ x, Stamp.instant? row.start = some x ∧ t < x ∧
          ∀ other ∈ s.meetings, ∀ y, Stamp.instant? other.start = some y → t < y → x ≤ y) ∧
      next.Pairwise (·.id < ·.id) := by
  obtain ⟨hholds, -, -⟩ := populateOver_ok (nodup_ids_of_populateOver h) h
  obtain ⟨w, hstamp, rfl⟩ := Stamp.ofMoment_of_instant? hnow hutc
  have hstamped := hholds.isStamped
  have hids := hholds.pairwise_id
  exact ⟨hholds.meetings.imp fun _ _ => keepsTimes_of_isRowOf,
    fun row hrow => ⟨isSome_instant? (hstamped row hrow).start,
      isSome_instant? (hstamped row hrow).finish⟩,
    current_eq hstamped hids hstamp, upcoming_eq hstamped hids hstamp⟩

def tourMoment : Moment where
  wall := ⟨⟨2025, 6, 2, by decide, by decide, by decide⟩, 11, 30, 0, 500000, by decide⟩
  frame := .fixed (2 * hour)

theorem populated_moments_tour : ∃ found, tourStore.current tourMoment = .ok found ∧
    ∃ row ∈ found, row.name = "Opening" := by
  have hnow : tourMoment.instant? = some 63884539800500000 := by decide
  obtain ⟨-, -, ⟨found, hfound, hmem, -⟩, -⟩ :=
    populated_moments (populateOver_tour {}) hnow (by decide)
  have hopening := (hmem _).mpr ⟨List.head_mem (by decide : tourStore.meetings ≠ []),
    63884538000000000, 63884541600000000, by decide⟩
  exact ⟨found, hfound, _, hopening, rfl⟩

end Store
end SiteVisit
