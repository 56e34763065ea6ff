import SiteVisit.Proofs.Documents.Bodies
import SiteVisit.Text.Slug

namespace SiteVisit

open Reporting (Gives)

theorem Text.slug_breakLines (s : String) : slug (Documents.breakLines s) = slug s := by
  have hchar (c : Char) : (lower (if c == '\r' then '\n' else c)).filter isSlugChar =
      (lower c).filter isSlugChar := by
    split
    · next hreturn =>
      rw [beq_iff_eq.mp hreturn]
      decide
    · rfl
  have hchars : ((Documents.breakLines s).toList.flatMap lower).filter isSlugChar =
      (s.toList.flatMap lower).filter isSlugChar := by
    rw [Documents.breakLines, String.toList_ofList, List.flatMap_map, List.filter_flatMap,
      List.filter_flatMap]
    exact List.flatMap_congr fun c _ => hchar c
  rw [slug, slug, slugChars, slugChars, hchars]

theorem Documents.breakLines_append (s t : String) :
    breakLines (s ++ t) = breakLines s ++ breakLines t := by
  rw [← String.toList_inj, String.toList_append]
  simp only [breakLines, String.toList_ofList, String.toList_append, List.map_append]

namespace Documents

namespace Full

variable {v : Visit} {m : Meeting}

theorem name_of_shownPerson {p q : Participant} (h : shownPerson p = shownPerson q) :
    breakLines p.fullName = breakLines q.fullName := by
  have hruns := congrArg Paragraph.runs h
  simp only [shownPerson, styled] at hruns
  split at hruns
  · split at hruns
    · simpa [shownBold, shownRun] using hruns
    · simp at hruns
  · split at hruns
    · simp at hruns
    · have htext : breakLines (p.fullName ++ ", ") = breakLines (q.fullName ++ ", ") := by
        simpa [shownBold, shownRun] using (List.cons.inj hruns).1
      rw [breakLines_append, breakLines_append, ← String.toList_inj, String.toList_append,
        String.toList_append, List.append_cancel_right_eq] at htext
      exact String.toList_inj.mp htext

theorem shownPerson_ne_allLine (p : Participant) : shownPerson p ≠ allLine := by
  intro h
  have hbold := congrArg (fun line => line.runs.head?.bind (·.bold)) h
  simp only [shownPerson, styled, allLine] at hbold
  split at hbold <;> simp [shownBold, shownRun] at hbold

theorem shownPerson_mem_map (hids : (v.participants.map (·.id)).Nodup)
    (hslugs : ∀ p ∈ v.participants, p.id = Text.slug p.fullName) {p : Participant}
    (hp : p ∈ v.participants) {people : List Participant} (h : ∀ q ∈ people, q ∈ v.participants) :
    shownPerson p ∈ people.map shownPerson ↔ p ∈ people := by
  constructor
  · intro hmem
    obtain ⟨q, hq, hline⟩ := List.mem_map.mp hmem
    have hid : q.id = p.id := by
      rw [hslugs q (h q hq), hslugs p hp, ← Text.slug_breakLines, name_of_shownPerson hline,
        Text.slug_breakLines]
    rwa [← List.inj_on_of_nodup_map hids (h q hq) hp hid]
  · exact List.mem_map_of_mem

theorem allLine_notMem_map (people : List Participant) : allLine ∉ people.map shownPerson := by
  intro hmem
  obtain ⟨p, -, hline⟩ := List.mem_map.mp hmem
  exact shownPerson_ne_allLine p hline

def AllAttend (v : Visit) (m : Meeting) : Prop :=
  v.teamMembers ≠ [] ∧ ∀ p ∈ v.teamMembers, Visit.Attends m p

theorem length_attendingTeam : (v.attendingTeam m).length = v.teamMembers.length ↔
    ∀ p ∈ v.teamMembers, Visit.Attends m p := by
  rw [Visit.attendingTeam, List.length_filter_eq_length_iff]
  exact forall₂_congr fun p _ => Visit.includes_iff

theorem attendingTeam_eq_nil_of_teamMembers (h : v.teamMembers = []) : v.attendingTeam m = [] := by
  rw [Visit.attendingTeam, h]
  rfl

theorem teamLines_eq : (AllAttend v m → teamLines v m = [allLine]) ∧
    (¬ AllAttend v m → teamLines v m = (v.attendingTeam m).map shownPerson) := by
  rw [teamLines]
  constructor
  · rintro ⟨hsome, hall⟩
    have hlength := length_attendingTeam.mpr hall
    have hne : v.attendingTeam m ≠ [] := by
      rw [← List.length_pos_iff, hlength, List.length_pos_iff]
      exact hsome
    rw [if_neg (by simpa using hne), if_pos (by simpa using hlength)]
  · intro hnot
    split
    · next hnone => rw [List.isEmpty_iff.mp hnone, List.map_nil]
    · next hne =>
      have hlength : ¬ (v.attendingTeam m).length = v.teamMembers.length := by
        intro hlength
        refine hnot ⟨fun hnone => hne ?_, length_attendingTeam.mp hlength⟩
        rw [attendingTeam_eq_nil_of_teamMembers hnone]
        rfl
      rw [if_neg (by simpa using hlength)]

theorem allLine_mem_teamLines : allLine ∈ teamLines v m ↔ AllAttend v m := by
  by_cases hall : AllAttend v m
  · simp [teamLines_eq.1 hall, hall]
  · simp [teamLines_eq.2 hall, hall, allLine_notMem_map, -List.mem_map]

theorem shown_in_team_iff (hids : (v.participants.map (·.id)).Nodup)
    (hslugs : ∀ p ∈ v.participants, p.id = Text.slug p.fullName) {p : Participant}
    (hp : p ∈ v.participants) :
    (shownPerson p ∈ teamLines v m ∨ allLine ∈ teamLines v m ∧ p ∈ v.teamMembers) ↔
      Visit.Attends m p := by
  have hmember : Visit.Attends m p → p ∈ v.teamMembers := fun hattends =>
    List.mem_filter.mpr ⟨hp, hattends.1⟩
  by_cases hall : AllAttend v m
  · simp only [teamLines_eq.1 hall, List.mem_singleton, shownPerson_ne_allLine, false_or, true_and]
    exact ⟨hall.2 p, hmember⟩
  · rw [teamLines_eq.2 hall, shownPerson_mem_map hids hslugs hp fun q hq =>
      (Visit.mem_attendingTeam.mp hq).1, Visit.mem_attendingTeam]
    simp only [hp, true_and, allLine_notMem_map, false_and, or_false]

theorem mem_listed_iff (hids : (v.participants.map (·.id)).Nodup) {p : Participant} :
    p ∈ v.listed m ↔ p ∈ v.participants ∧ Visit.Lists m p := by
  simp only [Visit.listed, List.mem_filterMap, Visit.Lists, Visit.listedIds, List.mem_map]
  constructor
  · rintro ⟨i, hi, hp⟩
    exact ⟨Visit.mem_of_participant? hp, i, hi, (Visit.id_of_participant? hp).symm⟩
  · rintro ⟨hp, i, hi, hid⟩
    exact ⟨i, hi, hid ▸ Visit.participant?_of_mem hids hp⟩

theorem shown_as_listed_iff (hids : (v.participants.map (·.id)).Nodup)
    (hslugs : ∀ p ∈ v.participants, p.id = Text.slug p.fullName) {p : Participant}
    (hp : p ∈ v.participants) : shownPerson p ∈ listedLines v m ↔ Visit.Lists m p := by
  rw [listedLines, shownPerson_mem_map hids hslugs hp fun q hq => ((mem_listed_iff hids).mp hq).1,
    mem_listed_iff hids]
  exact and_iff_right hp

end Full

theorem Full.errors_reports (v : Visit) (m : Meeting) :
    textsOf .error (Full.reports v m) = if m.hidesNames then [] else v.missingTexts m := by
  have hwarnings : textsOf .error (linklessIf v m m.showsZoom) = [] := by
    rw [linklessIf]
    split <;> rfl
  rw [Full.reports, textsOf_append, hwarnings, List.nil_append]
  split
  · rfl
  · exact v.errors_missingReports m

namespace Individual

theorem meetingsFor_eq (v : Visit) (p : Participant) :
    meetingsFor v p = v.meetings.filter (Visit.Attends · p) :=
  List.filter_congr fun m _ => Visit.includes_eq m p

end Individual
end Documents
end SiteVisit
