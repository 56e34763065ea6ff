import SiteVisit.Proofs.Documents.People
import SiteVisit.Proofs.Documents.Schedule
import SiteVisit.Proofs.Store.Reported

namespace SiteVisit

open Calendar (Timezones)
open Documents (meetingsByDay)
open Documents.Full (AllAttend allLine listedLines names shownPerson teamLines under)
open Visit (Attends Lists)

/-- What is said of a meeting: who attends it, and whom it lists. -/
structure ShowsPeople (v : Visit) (settings : DocumentSettings) (m : Meeting) : Prop where
  hidden : m.hidesNames = true → names v settings m = []
  shown : m.hidesNames = false → names v settings m =
    under settings.teamLabel (teamLines v m) ++
      under settings.representativeLabel (listedLines v m)
  all : allLine ∈ teamLines v m ↔ AllAttend v m
  single : allLine ∈ teamLines v m → teamLines v m = [allLine]
  team : ∀ p ∈ v.participants,
    (shownPerson p ∈ teamLines v m ∨ allLine ∈ teamLines v m ∧ p ∈ v.teamMembers) ↔ Attends m p
  listed : ∀ p ∈ v.participants, shownPerson p ∈ listedLines v m ↔ Lists m p

theorem showsPeople {v : Visit} (hids : (v.participants.map (·.id)).Nodup)
    (hslugs : ∀ p ∈ v.participants, p.id = Text.slug p.fullName) (settings : DocumentSettings)
    (m : Meeting) : ShowsPeople v settings m where
  hidden h := by rw [names, if_pos h]
  shown h := by rw [names, h, if_neg Bool.false_ne_true]
  all := Documents.Full.allLine_mem_teamLines
  single h := Documents.Full.teamLines_eq.1 (Documents.Full.allLine_mem_teamLines.mp h)
  team _ := Documents.Full.shown_in_team_iff hids hslugs
  listed _ := Documents.Full.shown_as_listed_iff hids hslugs

/-- What is stored of a meeting: the members of the team who attend it or are listed, and the
others who are listed. -/
structure StoresPeople (v : Visit) (m : Meeting) (d : Store.Detail) : Prop where
  team : d.teamMembers.Perm ((v.participants.filter fun p =>
    p.isTeamMember && decide (Lists m p ∨ Attends m p)).map fun p =>
      Store.personRow p (Store.personId v p))
  others : d.representatives.Perm ((v.participants.filter fun p =>
    !p.isTeamMember && decide (Lists m p)).map fun p => Store.personRow p (Store.personId v p))

theorem storesPeople {zones : Timezones} {zone : String} {v : Visit} {s : Store}
    (hids : (v.participants.map (·.id)).Nodup) (hholds : Store.Holds zones zone v s) {i : Nat}
    {m : Meeting} (hm : v.meetings[i]? = some m) (hid : Store.isRowNumber (i + 1) = true) :
    ∃ d, s.detail? (i + 1) = .ok (some d) ∧ StoresPeople v m d := by
  obtain ⟨row, -, hnumber, -, hdetail⟩ := hholds.exists_detail hm hid
  refine ⟨s.detailOf row, hdetail, ?_, ?_⟩
  · rw [hholds.teamMembers hm hnumber]
    exact (v.perm_filter_guests hids m _).map _
  · rw [hholds.representatives hm hnumber]
    -- Nobody attends who is not on the team.
    have hothers : (v.participants.filter fun p =>
        !p.isTeamMember && decide (Lists m p ∨ Attends m p)) =
        v.participants.filter fun p => !p.isTeamMember && decide (Lists m p) := by
      refine List.filter_congr fun p _ => ?_
      cases hteam : p.isTeamMember with
      | true => rfl
      | false =>
        have hnot : ¬ Attends m p := fun h => Bool.false_ne_true (hteam.symm.trans h.1)
        simp only [hnot, or_false]
    rw [← hothers]
    exact (v.perm_filter_guests hids m _).map _

/-- Whatever has been loaded, its documents and its store say the same of who attends a meeting,
and they report the same errors of each meeting that does not hide the names. -/
theorem attendance_agrees {w : Workbook} {o : LoadOptions} {v : Visit}
    {messages after : List Message} (h : (Visit.load w o).outcome messages = (.ok v, after)) :
    (∀ settings before d reported,
      (Documents.Individual.generate v settings).outcome before = (.ok d, reported) →
      d.body = [Documents.Individual.sectionEnd].intercalate (v.teamMembers.map fun p =>
        Documents.Individual.shownSection v p (v.meetings.filter (Attends · p)))) ∧
    (∀ settings before d reported,
      (Documents.Full.generate v settings).outcome before = (.ok d, reported) →
      d.body = ((meetingsByDay v).flatMap fun (date, meetings) =>
        Documents.Full.shownDay v settings date meetings).map .paragraph ∧
      ∃ said, reported = before ++ said ∧
        textsOf .error said = ((meetingsByDay v).flatMap (·.2)).flatMap fun m =>
          if m.hidesNames then [] else v.missingTexts m) ∧
    (∀ settings, ∀ m ∈ v.meetings, ShowsPeople v settings m) ∧
    ∀ (zones : Timezones) (zone path : String) (earlier s stored : Store)
      (before reported : List Message),
      Store.populateOver earlier path v zone before zones = (.ok s, reported, stored) →
      (∃ said, reported = before ++ said ∧
        textsOf .error said = v.meetings.flatMap v.missingTexts) ∧
      ∀ (i : Nat) (m : Meeting), v.meetings[i]? = some m → Store.isRowNumber (i + 1) = true →
        ∃ d, s.detail? (i + 1) = .ok (some d) ∧ StoresPeople v m d := by
  obtain ⟨_, _, _, -, -, -, hdrafted, hsound⟩ := Visit.sheets_of_read (Visit.load_eq_ok h)
  have hids := hsound.ids
  refine ⟨?_, ?_, fun settings m _ => showsPeople hids hdrafted.id_eq_slug settings m, ?_⟩
  · intro settings before d reported hd
    obtain ⟨hbody, -⟩ := Documents.Individual.generate_gives v settings before d reported hd
    simpa only [Documents.Individual.meetingsFor_eq] using hbody
  · intro settings before d reported hd
    obtain ⟨hbody, hsaid⟩ := Documents.Full.generate_gives v settings before d reported hd
    refine ⟨hbody, _, hsaid, ?_⟩
    simp only [textsOf_flatMap, Documents.Full.errors_reports, List.flatMap_assoc]
  · intro zones zone path earlier s stored before reported hstored
    obtain ⟨hholds, -, -⟩ := Store.populateOver_ok hids hstored
    exact ⟨Store.errors_populateOver hids hstored, fun i m hm hid =>
      storesPeople hids hholds hm hid⟩

open Documents (crossBook crossBook_legal crossRead load_crossBook)

theorem attendance_agrees_crossBook :
    (∃ d said, (Documents.Full.generate crossRead {}).outcome [] = (.ok d, said) ∧
      textsOf .error said = ["missing individual in Opening: nobody"]) ∧
    ∃ s reported stored d,
      Store.populateOver {} "visit.db" crossRead "America/New_York" [] =
        (.ok s, reported, stored) ∧
      textsOf .error reported =
        ["missing individual in Opening: nobody", "missing individual in Review: somebody"] ∧
      s.detail? 1 = .ok (some d) ∧
      d.teamMembers.Perm [⟨1, "ann-lee", "Ann Lee", "Chair", true⟩] ∧
      d.representatives.Perm [⟨2, "bo-ek", "Bo Ek", "Dean", false⟩] := by
  obtain ⟨after, hload⟩ := load_crossBook
  obtain ⟨-, hfull, -, hstore⟩ := attendance_agrees hload
  constructor
  · obtain ⟨d, reported, hd, -⟩ := Documents.generate_succeeds
      (Visit.showable_of_read (Visit.load_eq_ok hload) crossBook_legal.1) crossBook_legal.2 .full []
    obtain ⟨-, said, hsaid, herrors⟩ := hfull {} [] d reported hd
    rw [List.nil_append] at hsaid
    rw [hsaid] at hd
    exact ⟨d, said, hd, herrors.trans (by decide)⟩
  · obtain ⟨s, hs⟩ := Option.isSome_iff_exists.mp (show (Store.populateOver {} "visit.db" crossRead
      "America/New_York" []).1.toOption.isSome = true by decide +kernel)
    obtain ⟨⟨reported, stored⟩, hstored⟩ := exists_outcome_of_toOption hs
    obtain ⟨⟨said, hsaid, herrors⟩, hdetails⟩ := hstore _ _ _ _ _ _ _ _ hstored
    obtain ⟨d, hd, hteam, hothers⟩ := hdetails 0 _ rfl (by decide)
    rw [List.nil_append] at hsaid
    rw [← hsaid] at herrors
    refine ⟨s, reported, stored, d, hstored, herrors.trans (by decide), hd, ?_, ?_⟩
    · exact hteam.trans (.of_eq (by decide))
    · exact hothers.trans (.of_eq (by decide))

end SiteVisit
