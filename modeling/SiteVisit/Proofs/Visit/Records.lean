import SiteVisit.Proofs.Mapping.Rows
import SiteVisit.Proofs.Text.Chars
import SiteVisit.Visit.Load

namespace SiteVisit

open Text (OnlyOf)

namespace Spec

variable {name : String} {f : Transform} {v : Datum}

@[simp] theorem eval_cell : (cell name).eval v = selectHeader true name v := by
  simp only [cell, eval]

@[simp] theorem eval_cellThen : (cellThen name f).eval v = selectHeader true name v >>= f := by
  simp only [cellThen, eval, evalSteps, eval_cell]
  cases selectHeader true name v <;> simp

end Spec

namespace Datum

theorem IsTrimmed.textAt {P : String → Prop} {r : Datum} {key : String}
    (h : (r.fieldAt key).IsTrimmed P) : ∃ s, r.textAt key = Text.trim s ∧ P s := by
  obtain ⟨s, hs, hP⟩ := h
  exact ⟨s, by rw [Datum.textAt, hs]; rfl, hP⟩

end Datum

namespace Mendable

theorem cell (name : String) (v : Datum) : Mendable ((Spec.cell name).eval v) := by
  rw [Spec.eval_cell]
  exact selectHeader true name v

theorem cellThen {f : Transform} (hf : ∀ x, Mendable (f x)) (name : String) (v : Datum) :
    Mendable ((Spec.cellThen name f).eval v) := by
  rw [Spec.eval_cellThen]
  exact (selectHeader true name v).bind fun x _ => hf x

theorem timeFields (x : Datum) : Mendable (Transform.timeFields x) := by
  refine bind ?_ fun _ _ => ok _
  simp only [Transform.timeRangeOf]
  split
  · exact ok _
  · exact problem _

theorem matchFirst {marks : List (Matcher × Datum)}
    (h : ∀ mark ∈ marks, ∀ x, ∃ b, mark.1.accepts x = .ok b) (x : Datum) :
    Mendable (matchFirst marks x) := by
  induction marks with
  | nil => exact problem _
  | cons mark rest ih =>
    obtain ⟨hmark, hrest⟩ := List.forall_mem_cons.mp h
    obtain ⟨b, hb⟩ := hmark x
    simp only [SiteVisit.matchFirst, hb, ok_bind]
    split
    · exact ok _
    · exact ih hrest

theorem zoomOption (x : Datum) : Mendable (zoomOption x) := by
  refine matchFirst ?_ x
  simp only [zoomMarks, List.forall_mem_cons]
  exact ⟨fun _ => ⟨_, rfl⟩, fun _ => ⟨_, rfl⟩, fun _ => ⟨_, rfl⟩, by simp⟩

theorem fieldOf {known : List (String × Datum)} {key : String} (h : key ∈ known.map (·.1)) :
    Mendable (Derivation.fieldOf known key) := by
  obtain ⟨x, hx⟩ := Option.isSome_iff_exists.mp (field?_isSome.mpr h)
  rw [Derivation.fieldOf, hx]
  exact ok x

theorem mapM {α β : Type} {f : α → Except Fault β} {as : List α} (h : ∀ a ∈ as, Mendable (f a)) :
    Mendable (as.mapM f) := by
  induction as with
  | nil => exact ok []
  | cons a as ih =>
    rw [List.mapM_cons]
    exact bind (h a List.mem_cons_self) fun b _ =>
      (ih fun c hc => h c (List.mem_cons_of_mem a hc)).bind fun bs _ => ok (b :: bs)

end Mendable

theorem nodup_participantFields (fromColumn : Bool) :
    ((participantFields fromColumn).map (·.1)).Nodup := by
  cases fromColumn <;> decide

theorem nodup_meetingFields : (meetingFields.map (·.1)).Nodup := by decide

theorem nodup_zoomRoomFields : (zoomRoomFields.map (·.1)).Nodup := by decide

theorem needs_fullName : Derivation.fullName.Needs ["prefix", "first_name", "last_name"] :=
  fun _ h => ((Mendable.mapM fun key hkey => .fieldOf (h key hkey)).bind fun _ _ => .ok _).bind
    fun _ _ => .ok _

theorem needs_participantId : Derivation.participantId.Needs ["full_name"] :=
  fun _ h => (Mendable.fieldOf (h _ (by simp))).bind fun _ _ => .ok _

theorem needs_zoomIsOneOf (options : List ZoomOption) :
    (Derivation.zoomIsOneOf options).Needs ["zoom_room_option_type"] :=
  fun _ h => (Mendable.fieldOf (h _ (by simp))).bind fun _ _ => .ok _

theorem Derivation.Needs.mono {f : Derivation} {names more : List String} (hf : f.Needs names)
    (h : ∀ key ∈ names, key ∈ more) : f.Needs more :=
  fun known hknown => hf known fun key hkey => hknown key (h key hkey)

theorem mendable_participant (v : Datum) (fromColumn : Bool) :
    Mendable ((Spec.nested (participantFields fromColumn)).eval v) := by
  refine .nested (nodup_participantFields fromColumn) ?_ ?_
  · have hmark (x : Datum) : Mendable (Transform.mark x) := .ok _
    simp only [participantFields, List.forall_mem_cons]
    refine ⟨fun _ => .cell _ _, fun _ => .cell _ _, fun _ => .cell _ _, fun _ => .cell _ _,
      fun _ => .cellThen hmark _ _, fun _ => .cellThen hmark _ _, fun _ => .cell _ _,
      nofun, nofun, ?_, nofun⟩
    cases fromColumn with
    | true => exact fun _ => .cellThen (fun _ => .ok _) _ _
    | false =>
      simp only [Bool.false_eq_true, if_false, Spec.body, Spec.eval]
      exact fun _ => .ok _
  · cases fromColumn <;>
    exact .cons (needs_fullName.mono (by decide)) (.cons (needs_participantId.mono (by decide)) .nil)

theorem mendable_meeting {P : String → Prop} {v : Datum} (hv : v.IsRow P) :
    Mendable ((Spec.nested meetingFields).eval v) := by
  refine .nested nodup_meetingFields ?_ ?_
  · simp only [meetingFields, List.cons_append, List.nil_append, List.forall_mem_cons,
      List.forall_mem_append, List.forall_mem_map]
    refine ⟨fun _ => .cell _ _, fun _ => .cellThen (fun _ => .ok _) _ _,
      fun _ => .cellThen .timeFields _ _, fun _ => .cell _ _, fun _ => .cellThen .zoomOption _ _,
      nofun, nofun, ?_, fun _ => .cell _ _, ⟨fun r _ _ => .cellThen (fun _ => .ok _) _ _,
      fun _ => .cellThen (fun _ => .ok _) _ _, fun _ => .cellThen (fun _ => .ok _) _ _, ?_, ?_,
      nofun⟩⟩
    · intro _
      simp only [Spec.body, Spec.eval]
      exact .selectPattern hv _ _
    · intro _
      simp only [Spec.body, Spec.eval]
      exact .selectHeader _ _ _
    · intro _
      simp only [Spec.body, Spec.eval, Transform.markupOf]
      split <;> exact .ok _
  · exact .cons ((needs_zoomIsOneOf _).mono (by decide))
      (.cons ((needs_zoomIsOneOf _).mono (by decide)) .nil)

theorem mendable_zoomRoom (v : Datum) : Mendable ((Spec.nested zoomRoomFields).eval v) := by
  refine .nested nodup_zoomRoomFields ?_ .nil
  simp only [zoomRoomFields, List.forall_mem_cons]
  exact ⟨fun _ => .cell _ _, fun _ => .cell _ _, nofun⟩

structure Participant.TextsOf (Q : Char → Prop) (p : Participant) : Prop where
  fullName : OnlyOf Q p.fullName
  title : OnlyOf Q p.title

structure Meeting.TextsOf (Q : Char → Prop) (m : Meeting) : Prop where
  name : OnlyOf Q m.name
  date : OnlyOf Q m.date
  time : OnlyOf Q m.time
  location : OnlyOf Q m.location
  zoomRoom : OnlyOf Q m.zoomRoom
  rolesText : OnlyOf Q m.rolesText

structure ZoomRoom.TextsOf (Q : Char → Prop) (z : ZoomRoom) : Prop where
  name : OnlyOf Q z.name
  link : OnlyOf Q z.link

theorem Derivation.fieldOf_ok {known : List (String × Datum)} {key : String} {x : Datum}
    (h : fieldOf known key = .ok x) : field? known key = some x := by
  rw [fieldOf] at h
  split at h
  · next y hy =>
    cases h
    exact hy
  · cases h

section Records

variable {Q : Char → Prop} {v r : Datum}

theorem exists_textAt_cell {P : String → Prop} (hempty : P "") {fields : List (String × Spec)}
    (hv : v.IsRow P) (hr : Spec.Maps fields v r) (key name : String)
    (hmem : (key, .cell name) ∈ fields) (hkey : isSpliced key (.cell name) = false) :
    ∃ s, r.textAt key = Text.trim s ∧ P s := by
  have hx := hr.base _ _ hmem rfl hkey
  rw [Spec.eval_cell] at hx
  exact (hv.selectHeader hempty hx).textAt

theorem textAt_cell {fields : List (String × Spec)} (hv : v.IsRow (OnlyOf Q))
    (hr : Spec.Maps fields v r) (key name : String) (hmem : (key, .cell name) ∈ fields)
    (hkey : isSpliced key (.cell name) = false) : OnlyOf Q (r.textAt key) := by
  obtain ⟨s, hs, hQ⟩ := exists_textAt_cell .empty hv hr key name hmem hkey
  rw [hs]
  exact hQ.trim

theorem id_of_eval {fromColumn : Bool}
    (h : (Spec.nested (participantFields fromColumn)).eval v = .ok r) :
    (Participant.ofRecord r).id = Text.slug (Participant.ofRecord r).fullName := by
  have hr := Spec.maps_of_eval h (nodup_participantFields fromColumn)
  obtain ⟨known, hname, -⟩ := hr.derived "full_name" Derivation.fullName
    (by simp [participantFields])
  obtain ⟨known', hid, hagree⟩ := hr.derived "id" Derivation.participantId
    (by simp [participantFields])
  simp only [Derivation.fullName, bind_eq_ok, pure_eq_ok, Except.ok.injEq] at hname
  obtain ⟨joined, -, hname⟩ := hname
  simp only [Derivation.participantId, bind_eq_ok, pure_eq_ok, Except.ok.injEq] at hid
  obtain ⟨y, hy, hid⟩ := hid
  have hfull := hagree _ _ (Derivation.fieldOf_ok hy)
  rw [← hname] at hfull
  subst hfull
  simp only [Participant.ofRecord, Datum.textAt, ← hid, ← hname, Datum.text?, Option.getD_some,
    Datum.slug, Datum.words_text]

theorem fullName_of_eval (hspace : Q ' ') (hv : v.IsRow (OnlyOf Q)) {fromColumn : Bool}
    (h : (Spec.nested (participantFields fromColumn)).eval v = .ok r) :
    OnlyOf Q (Participant.ofRecord r).fullName := by
  have hr := Spec.maps_of_eval h (nodup_participantFields fromColumn)
  obtain ⟨known, hname, hagree⟩ := hr.derived "full_name" Derivation.fullName
    (by simp [participantFields])
  simp only [Derivation.fullName, Derivation.join, bind_eq_ok, pure_eq_ok, Except.ok.injEq] at hname
  obtain ⟨-, ⟨values, hvalues, rfl⟩, hname⟩ := hname
  have hparts : ∀ x ∈ values, OnlyOf Q x.shown := by
    intro x hx
    obtain ⟨key, hkey, hx⟩ := exists_of_forall₂_right (mapM_eq_ok.mp hvalues) hx
    obtain ⟨name, hmem, hplain⟩ : ∃ name, (key, .cell name) ∈ participantFields fromColumn ∧
        isSpliced key (.cell name) = false := by
      simp only [List.mem_cons, List.not_mem_nil, or_false] at hkey
      rcases hkey with rfl | rfl | rfl
      · exact ⟨"PFX", by simp [participantFields], by decide⟩
      · exact ⟨"First Name", by simp [participantFields], by decide⟩
      · exact ⟨"Last Name", by simp [participantFields], by decide⟩
    have hcell := hr.base _ _ hmem rfl hplain
    rw [hagree _ _ (Derivation.fieldOf_ok hx), Spec.eval_cell] at hcell
    obtain ⟨s, rfl, hQ⟩ := hv.selectHeader .empty hcell
    exact hQ.trim
  have hjoined : OnlyOf Q (" ".intercalate (values.map Datum.shown)) := by
    refine .intercalate ?_ (List.forall_mem_map.mpr hparts)
    intro c hc
    cases List.mem_singleton.mp hc
    exact hspace
  simp only [Participant.ofRecord, Datum.textAt, ← hname, Datum.text?, Option.getD_some]
  exact (OnlyOf.ofList (OnlyOf.squeezeFrom hspace hjoined)).trim

theorem texts_of_participant (hspace : Q ' ') (hv : v.IsRow (OnlyOf Q)) {fromColumn : Bool}
    (h : (Spec.nested (participantFields fromColumn)).eval v = .ok r) :
    (Participant.ofRecord r).TextsOf Q where
  fullName := fullName_of_eval hspace hv h
  title := textAt_cell hv (Spec.maps_of_eval h (nodup_participantFields fromColumn))
    "title" "Title /Involvement" (by simp [participantFields]) (by decide)

theorem texts_of_zoomRoom (hv : v.IsRow (OnlyOf Q))
    (h : (Spec.nested zoomRoomFields).eval v = .ok r) : (ZoomRoom.ofRecord r).TextsOf Q := by
  have hr := Spec.maps_of_eval h nodup_zoomRoomFields
  exact ⟨textAt_cell hv hr "zoom_room_name" "Zoom Room Name" (by simp [zoomRoomFields]) (by decide),
    textAt_cell hv hr "link" "Link" (by simp [zoomRoomFields]) (by decide)⟩

theorem name_of_eval {P : String → Prop} (hempty : P "") (hv : v.IsRow P)
    (h : (Spec.nested meetingFields).eval v = .ok r) :
    ∃ s, (Meeting.ofRecord r).name = Text.trim s ∧ P s :=
  exists_textAt_cell hempty hv (Spec.maps_of_eval h nodup_meetingFields) "interview_assignments"
    "Interview Assignments" (by simp [meetingFields]) (by decide)

theorem rolesText_of_eval {P : String → Prop} (hempty : P "") (hv : v.IsRow P)
    (h : (Spec.nested meetingFields).eval v = .ok r) :
    ∃ s, (Meeting.ofRecord r).rolesText = Text.trim s ∧ P s := by
  have hx := (Spec.maps_of_eval h nodup_meetingFields).base "team_roles_text"
    (.column teamRolesColumn false) (by simp [meetingFields]) rfl (by decide)
  simp only [Spec.eval] at hx
  exact (hv.selectHeader hempty hx).textAt

theorem texts_of_meeting (hv : v.IsRow (OnlyOf Q)) (h : (Spec.nested meetingFields).eval v = .ok r) :
    (Meeting.ofRecord r).TextsOf Q := by
  have hr := Spec.maps_of_eval h nodup_meetingFields
  refine {
    name := textAt_cell hv hr "interview_assignments" "Interview Assignments"
      (by simp [meetingFields]) (by decide)
    date := textAt_cell hv hr "date" "Date" (by simp [meetingFields]) (by decide)
    location := textAt_cell hv hr "meeting_location" "Meeting Location" (by simp [meetingFields])
      (by decide)
    time := ?_, zoomRoom := ?_, rolesText := ?_ }
  · obtain ⟨given, markup, hgiven, hat⟩ := hr.spliced "$time"
      (.cellThen "Time" Transform.timeFields) (by simp [meetingFields]) rfl (by decide)
    rw [show Spec.body _ = Spec.cellThen "Time" Transform.timeFields from rfl, Spec.eval_cellThen,
      bind_eq_ok] at hgiven
    obtain ⟨x, hx, hgiven⟩ := hgiven
    simp only [Transform.timeFields, bind_eq_ok, pure_eq_ok, Except.ok.injEq, Datum.record.injEq]
      at hgiven
    obtain ⟨range, -, rfl, -⟩ := hgiven
    obtain ⟨s, rfl, hQ⟩ := hv.selectHeader .empty hx
    simp only [Meeting.ofRecord, Datum.textAt, hat "time" _ List.mem_cons_self, Datum.words_text]
    exact hQ.trim.trim
  · have hx := hr.base "zoom_room_name" (.pattern { source := "^Zoom Link" } true)
      (by simp [meetingFields]) rfl (by decide)
    simp only [Spec.eval] at hx
    obtain ⟨s, hs, hQ⟩ := (hv.selectPattern .empty hx).textAt
    rw [Meeting.ofRecord, hs]
    exact hQ.trim
  · obtain ⟨s, hs, hQ⟩ := rolesText_of_eval .empty hv h
    rw [hs]
    exact hQ.trim

end Records
end SiteVisit
