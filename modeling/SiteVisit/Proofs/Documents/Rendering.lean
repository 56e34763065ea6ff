import SiteVisit.Documents.Kind
import SiteVisit.Proofs.Calendar.Labels
import SiteVisit.Proofs.Markup.Characters
import SiteVisit.Proofs.Mapping.Fields
import SiteVisit.Proofs.Visit.Records

namespace SiteVisit

open Text (OnlyOf)

structure DocumentSettings.TextsOf (Q : Char → Prop) (s : DocumentSettings) : Prop where
  institution : OnlyOf Q s.institution
  visitTitle : OnlyOf Q s.visitTitle
  visitDates : OnlyOf Q s.visitDates
  teamLabel : OnlyOf Q s.teamLabel
  representativeLabel : OnlyOf Q s.representativeLabel

end SiteVisit

namespace SiteVisit.Documents

open Text (OnlyOf IsPlain)
open Markup.Xml (IsLegal)
open Reporting (Succeeds)

theorem isLegal_of_plain {c : Char} (h : IsPlain c) : IsLegal c := by
  obtain ⟨hlow, hhigh⟩ := h
  simp only [IsLegal, Markup.Xml.isXmlChar, Bool.or_eq_true, Bool.and_eq_true, decide_eq_true_eq,
    bne_iff_ne]
  omega

theorem legal_of_plain {s : String} (h : OnlyOf IsPlain s) : OnlyOf IsLegal s :=
  h.mono fun _ => isLegal_of_plain

theorem isWritable_iff {s : String} : isWritable s = true ↔ OnlyOf IsLegal s := by
  simp only [isWritable, List.all_eq_true, OnlyOf]

structure Showable (v : Visit) : Prop where
  participants : ∀ p ∈ v.participants, p.TextsOf IsLegal
  meetings : ∀ m ∈ v.meetings, m.TextsOf IsLegal
  zoomRooms : ∀ z ∈ v.zoomRooms, z.TextsOf IsLegal
  known : ∀ m ∈ v.meetings, m.showsZoom = true → ∃ z, v.room? m.zoomRoom = some z

section Runs

variable {s : String}

theorem textRun_succeeds (h : OnlyOf IsLegal s) : Succeeds (textRun s) := by
  rw [textRun, writable, if_pos (isWritable_iff.mpr h)]
  exact (Succeeds.pure ()).bind fun _ => .pure _

theorem boldRun_succeeds (h : OnlyOf IsLegal s) : Succeeds (boldRun s) :=
  (textRun_succeeds h).bind fun _ => .pure _

theorem runsIfAny_succeeds (h : OnlyOf IsLegal s) : Succeeds (runsIfAny s) := by
  rw [runsIfAny]
  split
  · exact .pure []
  · exact (textRun_succeeds h).bind fun _ => .pure _

theorem linkRun_succeeds (target : String) (h : OnlyOf IsLegal s) :
    Succeeds (linkRun target s) := by
  rw [linkRun, writable, if_pos (isWritable_iff.mpr h)]
  exact (Succeeds.pure ()).bind fun _ => .pure _

theorem headerRun_succeeds (h : OnlyOf IsLegal s) (points : Nat) (color : String) :
    Succeeds (headerRun s points color) :=
  (textRun_succeeds h).bind fun _ => .pure _

theorem firstPageLine_succeeds (isFirst : Bool) (h : OnlyOf IsLegal s) (points : Nat)
    (color : String) : Succeeds (firstPageLine isFirst s points color) :=
  (headerRun_succeeds h points color).bind fun _ => .pure _

theorem textCell_succeeds (width : Nat) (h : OnlyOf IsLegal s) : Succeeds (textCell width s) :=
  (runsIfAny_succeeds h).bind fun _ => .pure _

theorem headerCell_succeeds (width : Nat) (h : OnlyOf IsLegal s) : Succeeds (headerCell width s) :=
  (boldRun_succeeds h).bind fun _ => .pure _

theorem spanningRow_succeeds (widths : List Nat) (h : OnlyOf IsLegal s) :
    Succeeds (spanningRow widths s) :=
  (headerCell_succeeds _ h).bind fun _ => .pure _

theorem timeCell_succeeds (width : Nat) (h : OnlyOf IsLegal s) (keepWithNext : Bool) :
    Succeeds (timeCell width s keepWithNext) :=
  (runsIfAny_succeeds h).bind fun _ => .pure _

theorem headerRow_succeeds (widths : List Nat) {labels : List String}
    (h : ∀ label ∈ labels, OnlyOf IsLegal label) : Succeeds (headerRow widths labels) := by
  refine (Succeeds.mapM fun cell hcell => ?_).bind fun _ => .pure _
  exact headerCell_succeeds _ (h _ (List.of_mem_zip hcell).2)

end Runs

section Layout

variable {v : Visit} {settings : DocumentSettings}

theorem startDocument_succeeds (hsettings : settings.TextsOf IsLegal) {title : Title}
    (hfirst : OnlyOf IsLegal title.first) (hrunning : OnlyOf IsLegal title.running) :
    Succeeds (startDocument settings title (visitDates v settings)) := by
  have hdates : OnlyOf IsLegal (visitDates v settings) := by
    rw [visitDates]
    split
    · exact legal_of_plain (Calendar.describeSpan_plain _)
    · exact hsettings.visitDates
  have hheader : Succeeds (firstHeader settings title (visitDates v settings)) := by
    refine (firstPageLine_succeeds true hsettings.institution _ _).bind fun _ => ?_
    refine (firstPageLine_succeeds false hsettings.visitTitle _ _).bind fun _ => ?_
    refine (firstPageLine_succeeds false hfirst _ _).bind fun _ => ?_
    dsimp only
    split
    · exact (Succeeds.pure []).bind fun _ => .pure _
    · refine (firstPageLine_succeeds false hdates _ _).bind fun _ => ?_
      exact (Succeeds.pure _).bind fun _ => .pure _
  have hbar : Succeeds (runningHeader settings title) := by
    refine (headerRun_succeeds hsettings.visitTitle _ _).bind fun _ => ?_
    refine (headerRun_succeeds hrunning _ _).bind fun _ => ?_
    exact (headerRun_succeeds (by decide) _ _).bind fun _ => .pure _
  exact hheader.bind fun _ => hbar.bind fun _ => .pure _

variable {m : Meeting}

theorem zoomRun_succeeds (hv : Showable v) (hm : m ∈ v.meetings) (hshown : m.showsZoom = true) :
    Succeeds (zoomRun v m) := by
  obtain ⟨z, hz⟩ := hv.known m hm hshown
  have hmem : z ∈ v.zoomRooms := List.mem_reverse.mp (List.mem_of_find?_eq_some hz)
  simp only [zoomRun, hz]
  split
  · exact linkRun_succeeds _ (hv.zoomRooms z hmem).name
  · exact (Succeeds.report _ _).bind fun _ => textRun_succeeds (hv.meetings m hm).zoomRoom

theorem locationCell_succeeds (hv : Showable v) (hm : m ∈ v.meetings) (width : Nat)
    {showsZoom : Bool} (hshown : showsZoom = true → m.showsZoom = true) :
    Succeeds (locationCell width v m showsZoom) := by
  refine (runsIfAny_succeeds (hv.meetings m hm).location).bind fun _ => ?_
  dsimp only
  split
  · next h => exact (zoomRun_succeeds hv hm (hshown h)).bind fun _ => .pure _
  · exact .pure _

theorem dates_succeed {β : Type} (hv : Showable v) {meetings : List Meeting}
    (hmeetings : ∀ m ∈ meetings, m ∈ v.meetings) {f : String × List Meeting → Reporting β}
    (hf : ∀ date some, OnlyOf IsLegal date → (∀ m ∈ some, m ∈ v.meetings) →
      Succeeds (f (date, some))) :
    Succeeds ((groupBy (·.date) meetings).mapM f) := by
  refine .mapM fun ⟨date, group⟩ hgroup => ?_
  obtain ⟨⟨m, hm, hdate⟩, hmem⟩ := grouped_groupBy meetings _ hgroup
  have hlegal : OnlyOf IsLegal m.date := (hv.meetings m (hmeetings m hm)).date
  rw [show m.date = date from hdate] at hlegal
  exact hf date group hlegal fun m hm => hmeetings m (hmem m hm).1

end Layout

namespace Full

variable {v : Visit} {settings : DocumentSettings} {m : Meeting}

theorem separated_succeeds {parts : List (Reporting Run)} (h : ∀ part ∈ parts, Succeeds part)
    (isFirst : Bool) : Succeeds (separated isFirst parts) := by
  induction parts generalizing isFirst with
  | nil => exact .pure []
  | cons part rest ih =>
    obtain ⟨hpart, hrest⟩ := List.forall_mem_cons.mp h
    exact hpart.bind fun _ => (ih hrest false).bind fun _ => .pure _

theorem meetingLine_succeeds (hv : Showable v) (hm : m ∈ v.meetings) :
    Succeeds (meetingLine v m) := by
  have htexts := hv.meetings m hm
  refine (boldRun_succeeds htexts.name).bind fun _ => ?_
  refine (separated_succeeds ?_ true).bind fun _ => .pure _
  simp only [List.forall_mem_append]
  refine ⟨⟨?_, ?_⟩, ?_⟩
  · split
    · exact fun _ h => (List.not_mem_nil h).elim
    · exact List.forall_mem_singleton.mpr ((textRun_succeeds htexts.time).bind fun _ => .pure _)
  · split
    · exact fun _ h => (List.not_mem_nil h).elim
    · exact List.forall_mem_singleton.mpr (textRun_succeeds htexts.location)
  · split
    · next hshown => exact List.forall_mem_singleton.mpr (zoomRun_succeeds hv hm hshown)
    · exact fun _ h => (List.not_mem_nil h).elim

theorem personLine_succeeds {p : Participant} (h : p.TextsOf IsLegal) :
    Succeeds (personLine p) := by
  rw [personLine]
  split
  · exact (boldRun_succeeds h.fullName).bind fun _ => .pure _
  · refine (boldRun_succeeds (h.fullName.append (by decide))).bind fun _ => ?_
    exact (textRun_succeeds h.title).bind fun _ => .pure _

theorem heading_succeeds {text : String} (h : OnlyOf IsLegal text) : Succeeds (heading text) :=
  (boldRun_succeeds h).bind fun _ => .pure _

theorem group_succeeds {text : String} (htext : OnlyOf IsLegal text) {people : List Participant}
    (h : ∀ p ∈ people, p.TextsOf IsLegal) : Succeeds (group text people) := by
  refine (heading_succeeds htext).bind fun _ => ?_
  exact (Succeeds.mapM fun p hp => personLine_succeeds (h p hp)).bind fun _ => .pure _

theorem team_succeeds (hv : Showable v) (hsettings : settings.TextsOf IsLegal) :
    Succeeds (team v settings m) := by
  simp only [team]
  split
  · exact .pure []
  · split
    · refine (heading_succeeds hsettings.teamLabel).bind fun _ => ?_
      exact (textRun_succeeds (by decide)).bind fun _ => .pure _
    · refine group_succeeds hsettings.teamLabel fun p hp => hv.participants p ?_
      exact List.mem_of_mem_filter (List.mem_of_mem_filter hp)

theorem representatives_yields (v : Visit) (m : Meeting) :
    (v.representatives m).Yields fun found => ∀ p ∈ found, p ∈ v.participants := by
  rw [Visit.representatives]
  induction m.individuals with
  | nil => exact .pure (by simp)
  | cons i rest ih =>
    rw [Visit.enlisted]
    cases hi : v.participant? i.id with
    | none => exact Reporting.Yields.bind (Succeeds.report _ _) fun _ _ => ih
    | some p =>
      refine ih.bind fun found hfound => .pure ?_
      exact List.forall_mem_cons.mpr ⟨List.mem_of_find?_eq_some hi, hfound⟩

theorem people_succeeds (hv : Showable v) (hsettings : settings.TextsOf IsLegal) (m : Meeting) :
    Succeeds (people v settings m) := by
  rw [people]
  split
  · exact .pure []
  · refine (team_succeeds hv hsettings).bind fun _ => ?_
    apply (representatives_yields v m).bind
    intro found hfound
    dsimp only
    split
    · exact (Succeeds.pure []).bind fun _ => .pure _
    · refine (group_succeeds hsettings.representativeLabel fun p hp => ?_).bind fun _ => .pure _
      exact hv.participants p (hfound p hp)

theorem generate_succeeds (hv : Showable v) (hsettings : settings.TextsOf IsLegal) :
    Succeeds (generate v settings) := by
  refine (startDocument_succeeds hsettings (by decide) (by decide)).bind fun _ => ?_
  refine (dates_succeed hv (fun _ h => h) fun date meetings hdate hmeetings => ?_).bind fun _ =>
    .pure _
  refine (runsIfAny_succeeds hdate).bind fun _ => ?_
  refine (Succeeds.mapM fun m hm => ?_).bind fun _ => .pure _
  refine (meetingLine_succeeds hv (hmeetings m hm)).bind fun _ => ?_
  exact (people_succeeds hv hsettings m).bind fun _ => .pure _

end Full

namespace Individual

variable {v : Visit} {settings : DocumentSettings} {m : Meeting}

theorem centered_succeeds {text : String} (h : OnlyOf IsLegal text) (points : Nat) :
    Succeeds (centered text points) :=
  (boldRun_succeeds h).bind fun _ => .pure _

theorem meetingRow_succeeds (hv : Showable v) (hm : m ∈ v.meetings) :
    Succeeds (meetingRow v m) := by
  have hprimary : m.zoomIsPrimary = true → m.showsZoom = true := by
    simp only [Meeting.zoomIsPrimary, Meeting.showsZoom, beq_iff_eq, bne_iff_ne]
    exact fun h => h ▸ nofun
  refine (timeCell_succeeds _ (hv.meetings m hm).time _).bind fun _ => ?_
  refine (textCell_succeeds _ (hv.meetings m hm).name).bind fun _ => ?_
  exact (locationCell_succeeds hv hm _ hprimary).bind fun _ => .pure _

theorem memberBlocks_succeeds (hv : Showable v) {p : Participant} (hp : p ∈ v.participants) :
    Succeeds (memberBlocks v p) := by
  refine (centered_succeeds (hv.participants p hp).fullName _).bind fun _ => ?_
  refine (centered_succeeds ((hv.participants p hp).title.append (by decide)).trim _).bind
    fun _ => ?_
  refine (dates_succeed hv (fun m hm => List.mem_of_mem_filter hm) fun date meetings hdate
    hmeetings => ?_).bind fun _ => .pure _
  refine (spanningRow_succeeds _ hdate).bind fun _ => ?_
  refine (headerRow_succeeds _ (by decide)).bind fun _ => ?_
  exact (Succeeds.mapM fun m hm => meetingRow_succeeds hv (hmeetings m hm)).bind fun _ => .pure _

theorem generate_succeeds (hv : Showable v) (hsettings : settings.TextsOf IsLegal) :
    Succeeds (generate v settings) := by
  refine (startDocument_succeeds hsettings (by decide) (by decide)).bind fun _ => ?_
  have hmembers : Succeeds (v.teamMembers.mapM (memberBlocks v)) :=
    .mapM fun p hp => memberBlocks_succeeds hv (List.mem_of_mem_filter hp)
  dsimp only
  split
  · exact (Succeeds.report _ _).bind fun _ => hmembers.bind fun _ => .pure _
  · exact hmembers.bind fun _ => .pure _

end Individual

namespace Summary

variable {v : Visit} {settings : DocumentSettings} {m : Meeting}

theorem plainRoles_legal (h : OnlyOf IsLegal m.rolesText) : OnlyOf IsLegal (plainRoles m) := by
  rw [plainRoles]
  split
  · refine .intercalate (by decide) (List.forall_mem_map.mpr fun r _ => ?_)
    cases r <;> decide
  · exact h

theorem mapM_formattedRun_succeeds {markup : String} {runs : List Markup.TextRun}
    (hruns : Markup.readRuns markup = .ok runs) : Succeeds (runs.mapM formattedRun) :=
  .mapM fun run hrun => (textRun_succeeds (Markup.readRuns_texts hruns run hrun)).bind fun _ =>
    .pure _

theorem rolesRuns_succeeds (h : OnlyOf IsLegal m.rolesText) : Succeeds (rolesRuns m) := by
  have hplain : Succeeds (runsIfAny (plainRoles m)) := runsIfAny_succeeds (plainRoles_legal h)
  rw [rolesRuns]
  split
  · exact hplain
  · split
    · next runs hruns => exact mapM_formattedRun_succeeds hruns
    · exact (Succeeds.report _ _).bind fun _ => hplain

theorem meetingRow_succeeds (hv : Showable v) (hm : m ∈ v.meetings)
    (withRoles isFirst isLast : Bool) : Succeeds (meetingRow v withRoles isFirst isLast m) := by
  have htexts := hv.meetings m hm
  have htime : OnlyOf IsLegal (if isFirst then m.time else "") := by
    split
    · exact htexts.time
    · exact .empty
  refine (timeCell_succeeds _ htime _).bind fun _ => ?_
  refine (textCell_succeeds _ htexts.name).bind fun _ => ?_
  refine (locationCell_succeeds hv hm _ id).bind fun _ => ?_
  dsimp only
  split
  · refine (rolesRuns_succeeds htexts.rolesText).bind fun _ => ?_
    exact (Succeeds.pure _).bind fun _ => .pure _
  · exact (Succeeds.pure _).bind fun _ => .pure _

theorem slotRows_succeeds (hv : Showable v) {meetings : List Meeting}
    (h : ∀ m ∈ meetings, m ∈ v.meetings) (withRoles isFirst : Bool) :
    Succeeds (slotRows v withRoles isFirst meetings) := by
  induction meetings generalizing isFirst with
  | nil => exact .pure []
  | cons m rest ih =>
    obtain ⟨hm, hrest⟩ := List.forall_mem_cons.mp h
    refine (meetingRow_succeeds hv hm _ _ _).bind fun _ => ?_
    exact (ih hrest false).bind fun _ => .pure _

theorem generate_succeeds (hv : Showable v) (hsettings : settings.TextsOf IsLegal)
    (withRoles : Bool) : Succeeds (generate withRoles v settings) := by
  have hstart : Succeeds (startDocument settings (if withRoles then rolesTitle else title)
      (visitDates v settings)) := by
    cases withRoles <;> exact startDocument_succeeds hsettings (by decide) (by decide)
  refine hstart.bind fun _ => ?_
  refine (dates_succeed hv (fun _ h => h) fun date meetings hdate hmeetings => ?_).bind fun _ =>
    .pure _
  refine (spanningRow_succeeds _ hdate).bind fun _ => ?_
  refine (headerRow_succeeds _ (by cases withRoles <;> decide)).bind fun _ => ?_
  refine (Succeeds.mapM fun ⟨time, slot⟩ hslot => ?_).bind fun _ => .pure _
  obtain ⟨-, hmem⟩ := grouped_groupBy meetings _ hslot
  exact slotRows_succeeds hv (fun m hm => hmeetings m (hmem m hm).1) _ _

end Summary

theorem generate_succeeds {v : Visit} {settings : DocumentSettings} (hv : Showable v)
    (hsettings : settings.TextsOf IsLegal) (kind : Kind) : Succeeds (kind.generate v settings) := by
  cases kind with
  | full => exact Full.generate_succeeds hv hsettings
  | individual => exact Individual.generate_succeeds hv hsettings
  | summary => exact Summary.generate_succeeds hv hsettings false
  | roles => exact Summary.generate_succeeds hv hsettings true

end SiteVisit.Documents
