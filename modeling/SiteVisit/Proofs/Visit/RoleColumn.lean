import SiteVisit.Proofs.Text.Separated
import SiteVisit.Proofs.Visit.Columns
import SiteVisit.Proofs.Visit.Usable

namespace SiteVisit

theorem Role.isItem_label (r : Role) : Text.IsItem r.label := by
  cases r <;> decide

section Labels

variable {roles : List String} (hroles : ∀ role ∈ roles, ∃ r : Role, r.label = role)

include hroles

theorem isItem_of_roles : ∀ role ∈ roles, Text.IsItem role := by
  intro role hrole
  obtain ⟨r, rfl⟩ := hroles role hrole
  exact r.isItem_label

theorem commaJoin_ne_teamRoles : Text.commaJoin roles ≠ teamRolesColumn := by
  intro h
  have hlist := Text.commaList_commaJoin (isItem_of_roles hroles)
  rw [h, show Text.commaList teamRolesColumn = [teamRolesColumn] by decide] at hlist
  obtain ⟨r, hr⟩ := hroles teamRolesColumn (hlist ▸ List.mem_cons_self)
  cases r <;> exact absurd hr (by decide)

theorem not_isIn_commaJoin : ¬ zoomLink.isIn (Text.commaJoin roles) := by
  rw [seeksStart_zoomLink.isIn_iff]
  have hlabel (r : Role) (more : List Char) : ¬ "Zoom Link".toList <+: r.label.toList ++ more := by
    intro h
    cases r <;> exact absurd (List.cons_prefix_cons.mp h).1 (by decide)
  intro h
  cases roles with
  | nil => exact absurd h (by decide)
  | cons role rest =>
    obtain ⟨r, rfl⟩ := hroles role List.mem_cons_self
    cases rest with
    | nil => exact hlabel r [] (by simpa [Text.commaJoin] using h)
    | cons second rest =>
      rw [Text.commaJoin_cons, String.append_assoc, String.toList_append] at h
      exact hlabel r _ h

end Labels

section Roster

def personFields : List (String × Spec) := (participantFields true).dropLast

def rolesSpec (fromColumn : Bool) : Spec :=
  if fromColumn then .cellThen "Team Member" Transform.commaList
  else .rowFunction fun _ => .ok (.list [])

theorem participantFields_eq (fromColumn : Bool) :
    participantFields fromColumn = personFields ++ [("team_member_roles", rolesSpec fromColumn)] :=
  rfl

def personDerivations : List (String × Derivation) :=
  [("full_name", Derivation.fullName), ("id", Derivation.participantId)]

variable {v w r : Datum}

theorem eval_participant_eq_ok {fromColumn : Bool} :
    (Spec.nested (participantFields fromColumn)).eval v = .ok r ↔ ∃ person x slots,
      Spec.evalFields ((participantFields true).map (·.1)) personFields v [] = .ok person ∧
      (rolesSpec fromColumn).eval v = .ok x ∧
      Slots.derive (person ++ [("team_member_roles", some x)]) personDerivations = .ok slots ∧
      r = .record slots.known [] := by
  have hnames : (participantFields fromColumn).map (·.1) = (participantFields true).map (·.1) := rfl
  have hderivations : Spec.derivations (participantFields fromColumn) = personDerivations := by
    cases fromColumn <;> rfl
  have hbody : (rolesSpec fromColumn).body = rolesSpec fromColumn := by
    cases fromColumn <;> rfl
  have hderived : (rolesSpec fromColumn).isDerived = false := by
    cases fromColumn <;> rfl
  have hspliced : isSpliced "team_member_roles" (rolesSpec fromColumn) = false := by
    cases fromColumn <;> decide
  simp only [Spec.eval, hnames, hderivations, bind_eq_ok, pure_eq_ok, Except.ok.injEq]
  simp only [participantFields_eq fromColumn, Spec.evalFields_append, bind_eq_ok,
    Spec.evalFields_singleton hderived hspliced, hbody]
  grind

theorem ignores_fullName : Derivation.fullName.Ignores "team_member_roles" := by
  intro known x y
  simp only [Derivation.fullName, Derivation.join, List.mapM_cons, List.mapM_nil,
    Derivation.fieldOf_append (show "team_member_roles" ≠ "prefix" by decide),
    Derivation.fieldOf_append (show "team_member_roles" ≠ "first_name" by decide),
    Derivation.fieldOf_append (show "team_member_roles" ≠ "last_name" by decide)]

theorem ignores_participantId : Derivation.participantId.Ignores "team_member_roles" := by
  intro known x y
  simp only [Derivation.participantId,
    Derivation.fieldOf_append (show "team_member_roles" ≠ "full_name" by decide)]

theorem textAt_append {key k : String} (h : key ≠ k) (fields : List (String × Datum)) (x : Datum) :
    (Datum.record (fields ++ [(key, x)]) []).textAt k = (Datum.record fields []).textAt k := by
  simp only [Datum.textAt, Datum.fieldAt, field?_append_of_ne h]

theorem flagAt_append {key k : String} (h : key ≠ k) (fields : List (String × Datum)) (x : Datum) :
    (Datum.record (fields ++ [(key, x)]) []).flagAt k = (Datum.record fields []).flagAt k := by
  simp only [Datum.flagAt, Datum.fieldAt, field?_append_of_ne h]

theorem ofRecord_append (fields : List (String × Datum)) (x y : Datum) :
    Participant.ofRecord (.record (fields ++ [("team_member_roles", y)]) []) =
      { Participant.ofRecord (.record (fields ++ [("team_member_roles", x)]) []) with
        roles := (Datum.record (fields ++ [("team_member_roles", y)]) []).textsAt
          "team_member_roles" } := by
  simp (disch := decide) only [Participant.ofRecord, textAt_append, flagAt_append]

/-- The fields that are derived have a place in the record under construction. -/
theorem mem_person {slots : Slots}
    (h : Spec.evalFields ((participantFields true).map (·.1)) personFields v [] = .ok slots) :
    ∀ d ∈ personDerivations, d.1 ∈ slots.map (·.1) := by
  intro d hd
  obtain ⟨-, parts, hparts, rfl⟩ := Spec.evalFields_ok h (by decide) (by decide) .nil (by simp)
  obtain ⟨part, hpart, hmem⟩ := Spec.exists_fills hparts (Spec.mem_derivations.mp hd)
  cases hpart with
  | derived => exact List.mem_map_of_mem (hmem (d.1, none) (List.mem_singleton_self _))
  | base hs => cases hs
  | spliced hs => cases hs

theorem textsAt_of_fieldAt {key : String} {items : List String}
    (h : r.fieldAt key = .ofTexts items) : r.textsAt key = items := by
  rw [Datum.textsAt, Datum.itemsAt, h]
  simp [Datum.ofTexts, Datum.elements, Datum.text?, Function.comp_def]

theorem eval_participant_of_roles (h : v.Keeps w) {roles : List String}
    (hr : (Spec.nested (participantFields false)).eval v = .ok r)
    (hroles : (rolesSpec true).eval w = .ok (.ofTexts roles)) :
    ∃ r', (Spec.nested (participantFields true)).eval w = .ok r' ∧
      Participant.ofRecord r' = { Participant.ofRecord r with roles := roles } := by
  obtain ⟨person, x, slots, hperson, hx, hderive, rfl⟩ := eval_participant_eq_ok.mp hr
  have hignores : ∀ d ∈ personDerivations, d.2.Ignores "team_member_roles" := by
    simp only [personDerivations, List.forall_mem_cons]
    exact ⟨ignores_fullName, ignores_participantId, nofun⟩
  obtain ⟨first, rfl, hderive'⟩ := Slots.derive_last (y := .ofTexts roles)
    (fun d hd => ⟨mem_person hperson d hd, hignores d hd⟩) hderive
  have hcarries : ∀ field ∈ personFields, field.2.isDerived = false → field.2.body.Carries v w :=
    fun field hfield => h.participantFields true field (List.dropLast_subset _ hfield)
  have heval := eval_participant_eq_ok.mpr
    ⟨person, _, _, Spec.evalFields_carries hcarries hperson, hroles, hderive', rfl⟩
  refine ⟨_, heval, ?_⟩
  have hfield := (Spec.maps_of_eval heval (nodup_participantFields true)).base "team_member_roles"
    (rolesSpec true) (by simp [participantFields_eq]) rfl (by decide)
  rw [hroles, Except.ok.injEq] at hfield
  rw [Slots.known_append] at hfield ⊢
  rw [Slots.known_append, ofRecord_append _ x, textsAt_of_fieldAt hfield.symm]

end Roster

namespace Sheet

def shifted (k column : Nat) : Nat := if column < k then column else column + 1

/-- A sheet with a further column, in front of those from a position on. -/
structure GainsColumn (k : Nat) (s t : Sheet) : Prop where
  hidden : s.hidden = t.hidden
  cell : ∀ row column, t.cell row (shifted k column) = s.cell row column

structure GainsRoles (k : Nat) (people : List Participant) (s t : Sheet) : Prop
    extends s.GainsColumn k t where
  header : t.label 0 k = "Team Member"
  roles : List.Forall₂ (fun row p => (t.cell row k).cellText = Text.commaJoin p.roles)
    (s.recordRows 0) people
  blank : ∀ row, row ≠ 0 → row ∉ s.recordRows 0 → (t.cell row k).cellText = ""

section Shifted

variable {k header column d : Nat} {s t : Sheet} {name : String}

theorem shifted_injective (k : Nat) : Function.Injective (shifted k) := by
  intro a b h
  simp only [shifted] at h
  split_ifs at h <;> omega

theorem eq_of_not_shifted (h : ∀ column, shifted k column ≠ d) : d = k := by
  rcases lt_trichotomy d k with hlt | heq | hgt
  · exact (h d (if_pos hlt)).elim
  · exact heq
  · exact (h (d - 1) (by rw [shifted, if_neg (by omega)]; omega)).elim

theorem GainsColumn.isColumn (h : s.GainsColumn k t) (hcolumn : s.IsColumn header name column)
    (hnew : t.label header k = name → column < k) :
    t.IsColumn header name (shifted k column) := by
  have hlabel (c : Nat) : t.label header (shifted k c) = s.label header c := by
    rw [label, label, h.cell]
  refine ⟨(hlabel column).trans hcolumn.label_eq, fun d hd heq => ?_⟩
  by_cases hplace : ∃ c, shifted k c = d
  · obtain ⟨c, rfl⟩ := hplace
    refine hcolumn.first c ?_ ((hlabel c).symm.trans heq)
    simp only [shifted] at hd
    split_ifs at hd <;> omega
  · obtain rfl := eq_of_not_shifted (not_exists.mp hplace)
    have hlt := hnew heq
    rw [shifted, if_pos hlt] at hd
    exact lt_asymm hlt hd

end Shifted

section Gaining

variable {k header : Nat} {people : List Participant} {s t : Sheet}

theorem GainsRoles.label_below (h : s.GainsRoles k people t) (hheader : header ≠ 0)
    (hroles : ∀ p ∈ people, ∀ role ∈ p.roles, ∃ r : Role, r.label = role) :
    ∃ roles : List String, (∀ role ∈ roles, ∃ r : Role, r.label = role) ∧
      t.label header k = Text.commaJoin roles := by
  by_cases hrow : header ∈ s.recordRows 0
  · obtain ⟨p, hp, htext⟩ := exists_of_forall₂_left h.roles hrow
    refine ⟨p.roles, hroles p hp, ?_⟩
    rw [label, htext, Text.trim_commaJoin (isItem_of_roles (hroles p hp))]
  · refine ⟨[], List.forall_mem_nil _, ?_⟩
    rw [label, h.blank header hheader hrow]
    rfl

theorem GainsRoles.standsIn (h : s.GainsRoles k people t)
    (hroles : ∀ p ∈ people, ∀ role ∈ p.roles, ∃ r : Role, r.label = role)
    (hplace : s.width ≤ k ∨ header = 0 ∧ ∀ column, s.label 0 column ≠ "Team Member") :
    s.StandsIn header (shifted k) t where
  hidden := h.hidden
  injective := shifted_injective k
  cell row column _ := h.cell row column
  blank row hrow _ hblank d hd := by
    obtain rfl := eq_of_not_shifted hd
    refine h.blank row (Nat.ne_zero_of_lt hrow) fun hmem => ?_
    have hfilled := (hasRecord_iff.mp (List.mem_filter.mp hmem).2).2.1
    rw [← Bool.not_eq_true, line_isBlank] at hfilled
    exact hfilled fun column _ => hblank column
  found name hname column hcolumn := by
    refine h.isColumn hcolumn fun hlabel => ?_
    rcases hplace with hwidth | ⟨rfl, hnone⟩
    · have hlt := lt_width_of_label (hcolumn.label_eq.symm ▸ (isPlainName_of_known name hname).1)
      exact hlt.trans_le hwidth
    · exact (hnone column (hcolumn.label_eq.trans (hlabel.symm.trans h.header))).elim
  further d hd := by
    obtain rfl := eq_of_not_shifted hd
    by_cases hheader : header = 0
    · rw [hheader, h.header]
      decide
    · obtain ⟨roles, hknown, hlabel⟩ := h.label_below hheader hroles
      rw [hlabel]
      exact ⟨commaJoin_ne_teamRoles hknown, not_isIn_commaJoin hknown⟩

theorem GainsRoles.eval_roles (h : s.GainsRoles k people t)
    (hnone : ∀ column, s.label 0 column ≠ "Team Member") {row : Nat} {roles : List String}
    (hrow : (t.cell row k).cellText = Text.commaJoin roles)
    (hroles : ∀ role ∈ roles, ∃ r : Role, r.label = role) :
    (rolesSpec true).eval (t.recordAt 0 t.width row).value = .ok (.ofTexts roles) := by
  have hcolumn : t.IsColumn 0 "Team Member" k := by
    refine ⟨h.header, fun d hd => ?_⟩
    rw [show d = shifted k d from (if_pos hd).symm, label, h.cell]
    exact hnone d
  have hitems := isItem_of_roles hroles
  rw [rolesSpec, if_pos rfl, Spec.eval_cellThen, selectHeader_recordAt hcolumn (by decide), hrow,
    Text.trim_commaJoin hitems, ok_bind, Transform.commaList, Datum.items, Datum.words_text,
    Text.commaList_commaJoin hitems]

end Gaining
end Sheet

/-- The workbook with a column of roles on the roster, which has had none. If the roster is the
schedule as well, the column stands after the last one. -/
structure Workbook.GainsRoles (o : LoadOptions) (people : List Participant) (w w' : Workbook) :
    Prop where
  others : ∀ name, name ≠ o.sheets.participants → w'.sheet name = w.sheet name
  roster : ∃ s t k, w.sheet o.sheets.participants = .ok s ∧
    w'.sheet o.sheets.participants = .ok t ∧ (∀ column, s.label 0 column ≠ "Team Member") ∧
    s.GainsRoles k people t ∧
    (o.sheets.participants = o.sheets.meetings → 0 < o.meetingsHeader → s.width ≤ k)

theorem exists_forall₂_map {α β γ : Type} {R S T : α → β → Prop} {f g : β → γ} {as : List α}
    {bs : List β} (hR : List.Forall₂ R as bs) (hS : List.Forall₂ S as bs)
    (h : ∀ a, ∀ b ∈ bs, R a b → S a b → ∃ b', T a b' ∧ f b' = g b) :
    ∃ bs', List.Forall₂ T as bs' ∧ bs'.map f = bs.map g := by
  induction hR with
  | nil => exact ⟨[], .nil, rfl⟩
  | cons hab _ ih =>
    cases hS with
    | cons hab' hS =>
      obtain ⟨hb, hbs⟩ := List.forall_mem_cons.mp (fun b hb a => h a b hb)
      obtain ⟨b', hT, hf⟩ := hb _ hab hab'
      obtain ⟨bs', hbs', hmap⟩ := ih hS fun a b hb => hbs b hb a
      exact ⟨b' :: bs', .cons hT hbs', by rw [List.map_cons, hf, hmap, List.map_cons]⟩

namespace Visit

variable {o : LoadOptions} {v : Visit}

theorem people_of_gainsRoles {s t : Sheet} {k : Nat} {people : List Participant}
    {records : List Datum} {labels : Participant → List String} {sheet : Option String}
    (h : s.GainsRoles k people t) (hnone : ∀ column, s.label 0 column ≠ "Team Member")
    (hroles : ∀ p ∈ people, ∀ role ∈ p.roles, ∃ r : Role, r.label = role)
    (hrecords : mapRows (.nested (participantFields false)) sheet (s.records 0) = .ok records)
    (hpeople : people = (records.map Participant.ofRecord).map fun p => p.gain (labels p)) :
    ∃ records', mapRows (.nested (participantFields true)) sheet (t.records 0) = .ok records' ∧
      people = records'.map Participant.ofRecord := by
  have hstands : s.StandsIn 0 (Sheet.shifted k) t := h.standsIn hroles (.inr ⟨rfl, hnone⟩)
  have hzero : (0 : Int) = (0 : Nat) := rfl
  rw [hzero, Sheet.records_eq, mapRows_eq_ok rfl, List.forall₂_map_left_iff] at hrecords
  have htexts := h.roles
  rw [List.map_map] at hpeople
  rw [hpeople, List.forall₂_map_right_iff] at htexts
  have hperson : ∀ row, ∀ r ∈ records,
      (Spec.nested (participantFields false)).eval (s.recordAt 0 s.width row).value = .ok r →
      (t.cell row k).cellText =
        Text.commaJoin ((Participant.ofRecord r).gain (labels (Participant.ofRecord r))).roles →
      ∃ r', (Spec.nested (participantFields true)).eval (t.recordAt 0 t.width row).value = .ok r' ∧
        Participant.ofRecord r' =
          (Participant.ofRecord r).gain (labels (Participant.ofRecord r)) := by
    intro row r hr hrow htext
    have hknown := hroles _ (hpeople ▸ List.mem_map_of_mem hr)
    exact eval_participant_of_roles (hstands.keeps (Nat.zero_le row)) hrow
      (h.eval_roles hnone htext hknown)
  obtain ⟨records', heval, hmap⟩ := exists_forall₂_map hrecords htexts hperson
  refine ⟨records', ?_, hpeople.trans hmap.symm⟩
  rw [hzero, Sheet.records_eq, mapRows_eq_ok rfl, ← hstands.recordRows, List.forall₂_map_left_iff]
  exact heval

theorem read_of_gainsRoles {w w' : Workbook} {nameRow headerRow : Int}
    (hsource : o.roleSource = .meetingsTable nameRow headerRow)
    (h : w.GainsRoles o v.participants w') (hread : read w o = .ok v) :
    read w' { o with roleSource := .participantsTable } = .ok v := by
  obtain ⟨schedule, roster, rooms, hschedule, hroster, hrooms, hdrafted, hsound⟩ :=
    sheets_of_read hread
  obtain ⟨s, t, k, hs, ht, hnone, hgains, hplace⟩ := h.roster
  obtain rfl : roster = s := Except.ok.inj (hroster.symm.trans hs)
  -- A sheet that is read gives the same, whether it is the roster or not.
  have hkept {name : String} (position : Int) {u : Sheet} (hu : w.sheet name = .ok u)
      (hcolumn : name = o.sheets.participants → 0 < position → roster.width ≤ k) :
      ∃ u', w'.sheet name = .ok u' ∧ KeepsRows (u.records position) (u'.records position) := by
    by_cases hname : name = o.sheets.participants
    · subst hname
      obtain rfl : roster = u := Except.ok.inj (hs.symm.trans hu)
      refine ⟨t, ht, Sheet.keepsRows_of_headers fun header hposition => ?_⟩
      refine (hgains.standsIn hsound.roles ?_).keepsRows
      rcases Nat.eq_zero_or_pos header with hheader | hheader
      · exact .inr ⟨hheader, hnone⟩
      · exact .inl (hcolumn rfl (hposition ▸ Int.natCast_pos.mpr hheader))
    · exact ⟨u, (h.others name hname).trans hu, .refl _⟩
  obtain ⟨schedule', hschedule', hmeetings⟩ :=
    hkept o.meetingsHeader hschedule fun heq => hplace heq.symm
  obtain ⟨rooms', hrooms', hzoomRooms⟩ :=
    hkept 0 hrooms fun _ hpos => absurd hpos (by decide)
  obtain ⟨records, hrecords, hroles⟩ := hdrafted.participants
  obtain ⟨labels, hpeople⟩ := hroles.eq_map_gain
  rw [hsource] at hrecords
  obtain ⟨records', hrecords', hpeople'⟩ :=
    people_of_gainsRoles hgains hnone hsound.roles hrecords hpeople
  exact Iff.mpr (read_eq_ok hschedule' ht hrooms') ⟨⟨⟨records', hrecords', hpeople'⟩,
    hdrafted.meetings_of_keeps hmeetings, hdrafted.zoomRooms_of_keeps hzoomRooms⟩, hsound⟩

/-- The two places for roles are worth the same: if a workbook is loaded with the roles that stand
above the schedule, then the workbook with these roles in a column of the roster gives the same
visit and the same messages. -/
theorem load_of_gainsRoles {w w' : Workbook} {nameRow headerRow : Int}
    {messages after : List Message} (hsource : o.roleSource = .meetingsTable nameRow headerRow)
    (h : w.GainsRoles o v.participants w')
    (hload : (load w o).outcome messages = (.ok v, after)) :
    (load w' { o with roleSource := .participantsTable }).outcome messages = (.ok v, after) := by
  have hread := load_eq_ok hload
  rw [load_congr hread (read_of_gainsRoles hsource h hread), hload]

def matrixBook (roster : List (List Datum)) : Workbook := [
  { name := "Proposed Meetings-MSCHE Team"
    rows := [
      ["", "", "", "", "", "", "Lee", "Lee"].map .text,
      ["Date", "Time", "Meeting Location", "Zoom Room Option", "Zoom Link",
        "Interview Assignments", "Team Chair", "SI", "SII", "SIII", "SIV", "SV", "SVI", "SVII",
        "Individuals", "Hide Names"].map .text,
      ["Monday, June 2, 2025", "9:00-10:00 a.m.", "Hall", "Primary Room", "Red", "Opening", "x",
        "", "", "", "", "", "", "", "Bo Ek", ""].map .text] },
  { name := "Participant List", rows := roster },
  { name := "Zoom Rooms"
    rows := [["Zoom Room Name", "Link"].map .text, ["Red", "https://zoom.us/j/1"].map .text] }]

def matrixOptions : LoadOptions where
  roleSource := .meetingsTable 0 1
  meetingsHeader := 1

def matrixRoster : List (List Datum) := [
  ["PFX", "First Name", "Last Name", "Title /Involvement", "Staff", "Faculty", "Email"].map .text,
  ["", "Ann", "Lee", "Chair", "", "", ""].map .text,
  ["", "Bo", "Ek", "Dean", "x", "", ""].map .text]

def matrixRosterWithRoles : List (List Datum) := [
  ["PFX", "First Name", "Last Name", "Team Member", "Title /Involvement", "Staff", "Faculty",
    "Email"].map .text,
  ["", "Ann", "Lee", "Team Chair, SI", "Chair", "", "", ""].map .text,
  ["", "Bo", "Ek", "", "Dean", "x", "", ""].map .text]

def matrixRead : Visit where
  meetings := tourRead.meetings
  participants := [
    { title := "Chair", firstName := "Ann", lastName := "Lee", fullName := "Ann Lee"
      id := "ann-lee", roles := ["Team Chair", "SI"] },
    { title := "Dean", firstName := "Bo", lastName := "Ek", staff := true, fullName := "Bo Ek"
      id := "bo-ek" }]
  zoomRooms := tourRead.zoomRooms

theorem sheet_exchange {s t : Sheet} (hname : s.name = t.name) {name : String} (h : name ≠ s.name)
    (before after : List Sheet) :
    Workbook.sheet (before ++ t :: after) name = Workbook.sheet (before ++ s :: after) name := by
  have ht : (t.name == name) = false := by simpa [hname] using h.symm
  simp only [Workbook.sheet, List.find?_append, List.find?_cons, hname, ht, List.map_append,
    List.map_cons]

theorem gainsRoles_matrixBook : (matrixBook matrixRoster).GainsRoles matrixOptions
    matrixRead.participants (matrixBook matrixRosterWithRoles) where
  others name h := sheet_exchange (s := ⟨"Participant List", matrixRoster, []⟩)
    (t := ⟨"Participant List", matrixRosterWithRoles, []⟩) rfl h [_] [_]
  roster := by
    have hrows : Sheet.recordRows ⟨"Participant List", matrixRoster, []⟩ 0 = [1, 2] := by
      decide
    refine ⟨_, _, 3, rfl, rfl, ?_, ⟨⟨rfl, ?_⟩, by decide, ?_, ?_⟩, nofun⟩
    · have hlabels : ∀ column < Sheet.width ⟨"Participant List", matrixRoster, []⟩,
          Sheet.label ⟨"Participant List", matrixRoster, []⟩ 0 column ≠ "Team Member" := by
        decide
      intro column h
      have hfilled : Sheet.label ⟨"Participant List", matrixRoster, []⟩ 0 column ≠ "" := by
        rw [h]
        decide
      exact hlabels column (Sheet.lt_width_of_label hfilled) h
    · rintro (_ | _ | _ | row) (_ | _ | _ | column) <;> rfl
    · rw [hrows]
      exact .cons (by decide) (.cons (by decide) .nil)
    · rw [hrows]
      rintro (_ | _ | _ | row) hheader hrow
      · exact (hheader rfl).elim
      · exact (hrow (by decide)).elim
      · exact (hrow (by decide)).elim
      · rfl

theorem load_matrixBook : ∃ after,
    (load (matrixBook matrixRoster) matrixOptions).outcome [] = (.ok matrixRead, after) ∧
      (load (matrixBook matrixRosterWithRoles)
        { matrixOptions with roleSource := .participantsTable }).outcome [] =
          (.ok matrixRead, after) := by
  obtain ⟨after, hload⟩ : ∃ after,
      (load (matrixBook matrixRoster) matrixOptions).outcome [] = (.ok matrixRead, after) :=
    exists_outcome_of_toOption (by decide)
  exact ⟨after, hload, load_of_gainsRoles rfl gainsRoles_matrixBook hload⟩

end Visit
end SiteVisit
