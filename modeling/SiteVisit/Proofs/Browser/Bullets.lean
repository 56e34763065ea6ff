import SiteVisit.Proofs.Browser.RoleHtml
import SiteVisit.Proofs.Store.Readback
import SiteVisit.Proofs.Text.Lines
import SiteVisit.Proofs.Visit.Spelling
import SiteVisit.Proofs.Visit.Usable

namespace SiteVisit

namespace Browser

open Store (PersonRow)
open Text (EndsLines isBlank linesBy)

variable {ends : Char → Bool}

theorem ends_escapeChars (hends : EndsLines ends) (cs : List Char) :
    (∀ c ∈ escapeChars cs, ends c = false) ↔ ∀ c ∈ cs, ends c = false := by
  have hsolid : ∀ d ∈ special, (d :: escapeChar d).all (isBlank · = false) :=
    List.all_iff_forall_prop.mp (by decide)
  have hfalse {c : Char} (hc : isBlank c = false) : ends c = false :=
    hends.eq_false fun hblank => absurd hblank (by rw [hc]; exact Bool.false_ne_true)
  rw [escapeChars, List.forall_mem_flatMap]
  refine forall₂_congr fun d _ => ?_
  by_cases hd : d ∈ special
  · obtain ⟨hblank, hchars⟩ :=
      List.forall_mem_cons.mp (List.all_iff_forall_prop.mp (hsolid d hd))
    exact iff_of_true (fun c hc => hfalse (hchars c hc)) (hfalse hblank)
  · rw [escapeChar_of_notMem hd, List.forall_mem_singleton]

theorem toList_personLine (name title : String) : (personLine name title).toList =
    "- ".toList ++ escapeChars name.toList ++ "  <small>".toList ++ escapeChars title.toList ++
      "</small>".toList := by
  simp only [personLine, escape, String.toList_append, String.toList_ofList]

theorem personLine_ne_nil (name title : String) : (personLine name title).toList ≠ [] := by
  rw [toList_personLine]
  simp

theorem ends_personLine (hends : EndsLines ends) (name title : String) :
    (∀ c ∈ (personLine name title).toList, ends c = false) ↔
      (∀ c ∈ name.toList, ends c = false) ∧ ∀ c ∈ title.toList, ends c = false := by
  have hfixed {cs : List Char} (hcs : cs.all fun c => isBlank c = true → c = ' ') :
      ∀ c ∈ cs, ends c = false :=
    fun c hc => hends.eq_false (List.all_iff_forall_prop.mp hcs c hc)
  have hbullet : ∀ c ∈ "- ".toList, ends c = false := hfixed (by decide)
  have hopened : ∀ c ∈ "  <small>".toList, ends c = false := hfixed (by decide)
  have hclosed : ∀ c ∈ "</small>".toList, ends c = false := hfixed (by decide)
  rw [toList_personLine]
  simp only [List.forall_mem_append, ends_escapeChars hends]
  exact ⟨fun ⟨⟨⟨⟨_, hname⟩, _⟩, htitle⟩, _⟩ => ⟨hname, htitle⟩,
    fun ⟨hname, htitle⟩ => ⟨⟨⟨⟨hbullet, hname⟩, hopened⟩, htitle⟩, hclosed⟩⟩

theorem linesBy_peopleLines (hends : EndsLines ends) (people : List (String × String)) :
    linesBy ends (peopleLines people).toList =
      people.flatMap fun p => linesBy ends (personLine p.1 p.2).toList := by
  have hne (p : String × String) (rest : List (String × String)) :
      (peopleLines (p :: rest)).toList ≠ [] := by
    cases rest with
    | nil => simpa [peopleLines] using personLine_ne_nil p.1 p.2
    | cons q rest => simp [peopleLines, String.intercalate_cons_cons]
  induction people with
  | nil => rfl
  | cons p rest ih =>
    cases rest with
    | nil => simp [peopleLines]
    | cons q rest =>
      have hjoined : (peopleLines (p :: q :: rest)).toList =
          (personLine p.1 p.2).toList ++ '\n' :: (peopleLines (q :: rest)).toList := by
        simp [peopleLines, String.intercalate_cons_cons]
      rw [hjoined, Text.linesBy_append hends.feed (personLine_ne_nil _ _) (hne q rest), ih]
      rfl

def peopleText (people : List PersonRow) : List Char :=
  (peopleLines (people.map fun p => (p.name, p.title))).toList

theorem linesBy_peopleText (hends : EndsLines ends) (people : List PersonRow) :
    linesBy ends (peopleText people) =
      people.flatMap fun p => linesBy ends (personLine p.name p.title).toList := by
  rw [peopleText, linesBy_peopleLines hends, List.flatMap_map]

theorem linesBy_peopleText_eq_iff (hends : EndsLines ends) {people : List PersonRow}
    (hnames : ∀ p ∈ people, ∀ c ∈ p.name.toList, ends c = false) :
    linesBy ends (peopleText people) = people.map (fun p => (personLine p.name p.title).toList) ↔
      ∀ p ∈ people, ∀ c ∈ p.title.toList, ends c = false := by
  rw [linesBy_peopleText hends]
  constructor
  · intro h p hp
    have hmem : (personLine p.name p.title).toList ∈
        people.flatMap fun p => linesBy ends (personLine p.name p.title).toList :=
      h ▸ List.mem_map_of_mem hp
    obtain ⟨q, -, hline⟩ := List.mem_flatMap.mp hmem
    exact ((ends_personLine hends _ _).mp (Text.ends_of_mem_linesBy hline)).2
  · intro h
    rw [List.map_eq_flatMap]
    refine List.flatMap_congr fun p hp => ?_
    exact Text.linesBy_eq_singleton (personLine_ne_nil _ _)
      ((ends_personLine hends _ _).mpr ⟨hnames p hp, h p hp⟩)

theorem length_linesBy_peopleText (hends : EndsLines ends) {people : List PersonRow}
    (hnames : ∀ p ∈ people, ∀ c ∈ p.name.toList, ends c = false) :
    (linesBy ends (peopleText people)).length = people.length ↔
      ∀ p ∈ people, ∀ c ∈ p.title.toList, ends c = false := by
  rw [linesBy_peopleText hends,
    Text.length_flatMap_eq_iff fun p _ => Text.length_linesBy_pos (personLine_ne_nil _ _)]
  refine forall₂_congr fun p hp => ?_
  rw [Text.length_linesBy_eq_one_iff (personLine_ne_nil _ _), ends_personLine hends,
    and_iff_right (hnames p hp)]

theorem exists_participant {zones : Calendar.Timezones} {zone : String} {v : Visit} {s : Store}
    (h : s.Holds zones zone v) {id : Int} {d : Store.Detail} (hd : s.detail? id = .ok (some d))
    {p : PersonRow} (hp : p ∈ d.teamMembers ++ d.representatives) :
    ∃ person ∈ v.participants, p.name = person.fullName := by
  rw [Store.detail?] at hd
  split at hd
  · obtain ⟨m, -, rfl⟩ := Option.map_eq_some_iff.mp (Except.ok.inj hd)
    have hat : p ∈ s.peopleAt m.id := by
      rcases List.mem_append.mp hp with hp | hp
      · exact List.mem_of_mem_filter hp
      · exact List.mem_of_mem_filter hp
    obtain ⟨attendance, -, hfound⟩ := List.mem_filterMap.mp hat
    have hpeople : p ∈ s.people := List.mem_of_find?_eq_some hfound
    rw [h.people] at hpeople
    obtain ⟨i, hi⟩ := List.mem_iff_getElem?.mp hpeople
    rw [Store.getElem?_rowsFrom] at hi
    obtain ⟨person, hperson, rfl⟩ := Option.map_eq_some_iff.mp hi
    exact ⟨person, List.mem_of_getElem? hperson, rfl⟩
  · cases hd

/-- The names on the page of a meeting have no line ends, and what is shown of the people are the
lines of their bullets one after the other. So there are as many lines as people, and the lines are
the bullets, exactly if no title has a line end. -/
theorem peopleText_of_loaded {w : Workbook} {o : LoadOptions} {v : Visit}
    {messages after : List Message} (hload : (Visit.load w o).outcome messages = (.ok v, after))
    {earlier s stored : Store} {path zone : String} {before reported : List Message}
    {zones : Calendar.Timezones}
    (hstored : Store.populateOver earlier path v zone before zones = (.ok s, reported, stored))
    {id : Int} {d : Store.Detail} (hdetail : s.detail? id = .ok (some d)) {ends : Char → Bool}
    (hends : EndsLines ends) :
    ∀ people ∈ [d.teamMembers, d.representatives],
      (∀ p ∈ people, ∀ c ∈ p.name.toList, ends c = false) ∧
      linesBy ends (peopleText people) =
        people.flatMap (fun p => linesBy ends (personLine p.name p.title).toList) ∧
      (linesBy ends (peopleText people) = people.map (fun p => (personLine p.name p.title).toList) ↔
        ∀ p ∈ people, ∀ c ∈ p.title.toList, ends c = false) ∧
      ((linesBy ends (peopleText people)).length = people.length ↔
        ∀ p ∈ people, ∀ c ∈ p.title.toList, ends c = false) := by
  obtain ⟨schedule, roster, rooms, -, -, -, hdrafted, hsound⟩ :=
    Visit.sheets_of_read (Visit.load_eq_ok hload)
  obtain ⟨hholds, -, -⟩ := Store.populateOver_ok hsound.ids hstored
  intro people hpeople
  have hnames : ∀ p ∈ people, ∀ c ∈ p.name.toList, ends c = false := by
    intro p hp
    have hmem : p ∈ d.teamMembers ++ d.representatives := by
      simp only [List.mem_cons, List.not_mem_nil, or_false] at hpeople
      rcases hpeople with rfl | rfl
      · exact List.mem_append_left _ hp
      · exact List.mem_append_right _ hp
    obtain ⟨person, hperson, hname⟩ := exists_participant hholds hdetail hmem
    obtain ⟨joined, hjoined⟩ := hdrafted.exists_fullName person hperson
    rw [hname, hjoined]
    exact fun c hc => hends.eq_false (Text.eq_space_of_mem_collapse hc)
  exact ⟨hnames, linesBy_peopleText hends people, linesBy_peopleText_eq_iff hends hnames,
    length_linesBy_peopleText hends hnames⟩

/-- A workbook in which the title of a representative has two lines. The second one looks like a
bullet. -/
def dividedBook : Workbook := Visit.tourBook.map fun s =>
  { s with rows := s.rows.map fun row => row.map fun cell =>
      if cell.isText "Dean" then .text "Dean\n- Provost" else cell }

def dividedRead : Visit :=
  { Visit.tourRead with
    participants := Visit.tourRead.participants.map fun p =>
      if p.title = "Dean" then { p with title := "Dean\n- Provost" } else p }

theorem load_dividedBook :
    ∃ after, (Visit.load dividedBook {}).outcome [] = (.ok dividedRead, after) :=
  exists_outcome_of_toOption (by decide)

theorem exists_dividedDetail : ∃ s reported stored d,
    Store.populateOver {} "visit.db" dividedRead "UTC" [] = (.ok s, reported, stored) ∧
      s.detail? 1 = .ok (some d) ∧ d.teamMembers = [⟨1, "ann-lee", "Ann Lee", "Chair", true⟩] ∧
      d.representatives = [⟨2, "bo-ek", "Bo Ek", "Dean\n- Provost", false⟩] := by
  have hcomputed : ((Store.populateOver {} "visit.db" dividedRead "UTC" []).1.toOption.bind fun s =>
      (s.detail? 1).toOption.join.map fun d => (d.teamMembers, d.representatives)) =
        some ([⟨1, "ann-lee", "Ann Lee", "Chair", true⟩],
          [⟨2, "bo-ek", "Bo Ek", "Dean\n- Provost", false⟩]) := by decide +kernel
  obtain ⟨s, hs, hcomputed⟩ := Option.bind_eq_some_iff.mp hcomputed
  obtain ⟨d, hd, heq⟩ := Option.map_eq_some_iff.mp hcomputed
  obtain ⟨hteam, hothers⟩ := Prod.mk.inj heq
  obtain ⟨⟨reported, stored⟩, hstored⟩ := exists_outcome_of_toOption hs
  exact ⟨s, reported, stored, d, hstored, eq_ok_of_toOption (Option.join_eq_some_iff.mp hd), hteam,
    hothers⟩

theorem endsLines_feed : EndsLines (· == '\n') where
  feed := rfl
  blank c hc := by
    rw [beq_iff_eq.mp hc]
    decide
  space := by decide

theorem peopleText_of_loaded_divided : ∃ d : Store.Detail, EndsLines (· == '\n') ∧
    d.teamMembers = [⟨1, "ann-lee", "Ann Lee", "Chair", true⟩] ∧
    linesBy (· == '\n') (peopleText d.teamMembers) =
      d.teamMembers.map fun p => (personLine p.name p.title).toList := by
  obtain ⟨after, hload⟩ := load_dividedBook
  obtain ⟨s, reported, stored, d, hstored, hdetail, hteam, -⟩ := exists_dividedDetail
  obtain ⟨-, -, hlines, -⟩ := peopleText_of_loaded hload hstored hdetail endsLines_feed
    d.teamMembers List.mem_cons_self
  refine ⟨d, endsLines_feed, hteam, hlines.mpr ?_⟩
  rw [hteam, List.forall_mem_singleton]
  exact List.all_iff_forall_prop.mp (by decide)

/-- A title with two lines is shown as two bullets. -/
theorem divided_title_breaks : ∃ after s reported stored d,
    (Visit.load dividedBook {}).outcome [] = (.ok dividedRead, after) ∧
      Store.populateOver {} "visit.db" dividedRead "UTC" [] = (.ok s, reported, stored) ∧
      s.detail? 1 = .ok (some d) ∧ d.representatives.length = 1 ∧
      linesBy (· == '\n') (peopleText d.representatives) =
        ["- Bo Ek  <small>Dean".toList, "- Provost</small>".toList] := by
  obtain ⟨after, hload⟩ := load_dividedBook
  obtain ⟨s, reported, stored, d, hstored, hdetail, -, hothers⟩ := exists_dividedDetail
  refine ⟨after, s, reported, stored, d, hload, hstored, hdetail, by rw [hothers]; rfl, ?_⟩
  rw [hothers]
  decide

end Browser
end SiteVisit
