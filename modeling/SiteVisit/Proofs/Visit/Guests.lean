import Mathlib.Data.List.Induction
import Mathlib.Data.List.Nodup
import SiteVisit.Proofs.Reports
import SiteVisit.Visit.Attendance

namespace SiteVisit.Visit

variable {v : Visit} {m : Meeting}

def listedIds (m : Meeting) : List String := m.individuals.map (·.id)

def guests (v : Visit) (m : Meeting) : List Participant :=
  (listedIds m).eraseDups.filterMap v.participant? ++
    (v.attendingTeam m).filter fun p => !(listedIds m).contains p.id

theorem id_of_participant? {id : String} {p : Participant} (h : v.participant? id = some p) :
    p.id = id := by
  simpa using List.find?_some h

theorem mem_of_participant? {id : String} {p : Participant} (h : v.participant? id = some p) :
    p ∈ v.participants := List.mem_of_find?_eq_some h

theorem exists_participant? {p : Participant} (hp : p ∈ v.participants) :
    ∃ q, v.participant? p.id = some q := by
  rw [← Option.isSome_iff_exists, participant?, List.find?_isSome]
  exact ⟨p, hp, beq_self_eq_true _⟩

theorem mem_guests {p : Participant} (hp : p ∈ v.guests m) : p ∈ v.participants := by
  rcases List.mem_append.mp hp with hp | hp
  · obtain ⟨id, -, hid⟩ := List.mem_filterMap.mp hp
    exact mem_of_participant? hid
  · exact List.mem_of_mem_filter (List.mem_of_mem_filter (List.mem_of_mem_filter hp))

theorem enlisted_outcome (individuals : List Individual) (messages : List Message) :
    (v.enlisted m individuals).outcome messages =
      (.ok (individuals.filterMap fun i => v.participant? i.id),
        messages ++ (individuals.filter fun i => (v.participant? i.id).isNone).map fun i =>
          ⟨.error, missing m i⟩) := by
  induction individuals generalizing messages with
  | nil => simp [enlisted]
  | cons i rest ih =>
    cases hi : v.participant? i.id with
    | some p =>
      simp only [enlisted, hi, Reporting.outcome_bind, ih, Reporting.outcome_pure]
      simp [hi]
    | none =>
      simp only [enlisted, hi, Reporting.outcome_bind, Reporting.error, Reporting.outcome_report,
        ih]
      simp [hi]

section Once

def addOnce (found : List Participant) (p : Participant) : List Participant :=
  if found.any (·.id == p.id) then found else found ++ [p]

theorem onceEach_append (people more : List Participant) :
    onceEach (people ++ more) = more.foldl addOnce (onceEach people) := List.foldl_append

theorem foldl_addOnce {people : List Participant} (h : (people.map (·.id)).Nodup)
    (found : List Participant) :
    people.foldl addOnce found = found ++ people.filter fun p => !found.any (·.id == p.id) := by
  induction people generalizing found with
  | nil => simp
  | cons p rest ih =>
    obtain ⟨hp, hrest⟩ := List.nodup_cons.mp h
    rw [List.foldl_cons, ih hrest, addOnce, List.filter_cons]
    cases hfound : found.any (·.id == p.id) with
    | true => simp
    | false =>
      have hother : ∀ q ∈ rest, (p.id == q.id) = false := fun q hq =>
        beq_false_of_ne fun heq => hp (List.mem_map.mpr ⟨q, hq, heq.symm⟩)
      simp only [Bool.false_eq_true, if_false, List.append_assoc, List.singleton_append,
        Bool.not_false, if_true]
      congr 2
      apply List.filter_congr
      intro q hq
      rw [List.any_append, List.any_cons, hother q hq]
      simp

theorem nodup_addOnce {found : List Participant} (h : (found.map (·.id)).Nodup) (p : Participant) :
    ((addOnce found p).map (·.id)).Nodup := by
  rw [addOnce]
  split
  · exact h
  · next hnew =>
    have hid : p.id ∉ found.map (·.id) := by
      intro hmem
      obtain ⟨q, hq, heq⟩ := List.mem_map.mp hmem
      exact hnew (List.any_eq_true.mpr ⟨q, hq, beq_iff_eq.mpr heq⟩)
    rw [List.map_append, List.map_singleton]
    exact List.nodup_append.mpr ⟨h, List.nodup_singleton _, by simpa using hid⟩

theorem nodup_onceEach (people : List Participant) : ((onceEach people).map (·.id)).Nodup := by
  induction people using List.reverseRecOn with
  | nil => exact List.nodup_nil
  | append_singleton people p ih =>
    rw [onceEach_append]
    exact nodup_addOnce ih p

theorem any_id_filterMap (ids : List String) {p : Participant}
    (hp : v.participant? p.id = some p) :
    (ids.filterMap v.participant?).any (·.id == p.id) = ids.contains p.id := by
  rw [Bool.eq_iff_iff]
  simp only [List.any_eq_true, List.mem_filterMap, beq_iff_eq, List.contains_iff_mem]
  constructor
  · rintro ⟨q, ⟨id, hid, hq⟩, hpq⟩
    rw [← hpq, id_of_participant? hq]
    exact hid
  · intro hid
    exact ⟨p, ⟨p.id, hid, hp⟩, rfl⟩

theorem onceEach_filterMap (ids : List String) :
    onceEach (ids.filterMap v.participant?) = ids.eraseDups.filterMap v.participant? := by
  induction ids using List.reverseRecOn with
  | nil => rfl
  | append_singleton ids id ih =>
    rw [List.filterMap_append, onceEach_append, ih, List.eraseDups_append, List.filterMap_append]
    cases hid : v.participant? id with
    | none =>
      by_cases hmem : id ∈ ids <;> simp [List.removeAll, hid, hmem]
    | some p =>
      obtain rfl := id_of_participant? hid
      have hany := any_id_filterMap ids.eraseDups hid
      by_cases hmem : p.id ∈ ids
      · simp [List.removeAll, hid, hmem, addOnce, hany]
      · simp [List.removeAll, List.eraseDups_cons, hid, hmem, addOnce, hany]

end Once

theorem participant?_of_mem (hids : (v.participants.map (·.id)).Nodup) {p : Participant}
    (hp : p ∈ v.participants) : v.participant? p.id = some p := by
  obtain ⟨q, hq⟩ := exists_participant? hp
  rw [hq, List.inj_on_of_nodup_map hids (mem_of_participant? hq) hp (id_of_participant? hq)]

theorem onceEach_eq_guests (hids : (v.participants.map (·.id)).Nodup) (m : Meeting) :
    onceEach ((m.individuals.filterMap fun i => v.participant? i.id) ++ v.attendingTeam m) =
      v.guests m := by
  have hlisted : (m.individuals.filterMap fun i => v.participant? i.id) =
      (listedIds m).filterMap v.participant? := by
    rw [listedIds, List.filterMap_map]
    rfl
  have hteam : (v.attendingTeam m).Sublist v.participants :=
    List.filter_sublist.trans List.filter_sublist
  rw [hlisted, onceEach_append, onceEach_filterMap, guests,
    foldl_addOnce (hids.sublist (hteam.map _))]
  congr 1
  apply List.filter_congr
  intro p hp
  rw [any_id_filterMap _ (participant?_of_mem hids (hteam.subset hp))]
  simp

theorem attendees_outcome (hids : (v.participants.map (·.id)).Nodup) (m : Meeting)
    (messages : List Message) :
    (v.attendees m).outcome messages =
      (.ok (v.guests m),
        messages ++ (m.individuals.filter fun i => (v.participant? i.id).isNone).map fun i =>
          ⟨.error, missing m i⟩) := by
  rw [attendees, Reporting.outcome_bind, representatives, enlisted_outcome]
  simp only [Reporting.outcome_pure, onceEach_eq_guests hids]

theorem nodup_ids_guests (hids : (v.participants.map (·.id)).Nodup) (m : Meeting) :
    ((v.guests m).map (·.id)).Nodup := by
  rw [← onceEach_eq_guests hids]
  exact nodup_onceEach _

def Attends (m : Meeting) (p : Participant) : Prop :=
  p.isTeamMember = true ∧ ∃ role ∈ p.roles, ∃ r ∈ m.roles, r.label = role

def Lists (m : Meeting) (p : Participant) : Prop := p.id ∈ listedIds m

theorem includes_iff {p : Participant} : m.includes p = true ↔ Attends m p := by
  simp only [Meeting.includes, Meeting.hasRole, List.any_eq_true, beq_iff_eq, Attends]
  constructor
  · rintro ⟨role, hrole, hflagged⟩
    have hteam : p.isTeamMember = true := by
      rw [Participant.isTeamMember, Bool.not_eq_true', List.isEmpty_eq_false_iff]
      exact List.ne_nil_of_mem hrole
    exact ⟨hteam, role, hrole, hflagged⟩
  · exact And.right

instance (m : Meeting) : DecidablePred (Attends m) := fun _ => decidable_of_iff _ includes_iff

instance (m : Meeting) : DecidablePred (Lists m) :=
  fun p => inferInstanceAs (Decidable (p.id ∈ listedIds m))

theorem includes_eq (m : Meeting) (p : Participant) : m.includes p = decide (Attends m p) := by
  rw [Bool.eq_iff_iff, includes_iff, decide_eq_true_iff]

theorem mem_attendingTeam {p : Participant} :
    p ∈ v.attendingTeam m ↔ p ∈ v.participants ∧ Attends m p := by
  simp only [attendingTeam, teamMembers, List.mem_filter, includes_iff, Attends]
  tauto

theorem mem_guests_iff (hids : (v.participants.map (·.id)).Nodup) {p : Participant} :
    p ∈ v.guests m ↔ p ∈ v.participants ∧ (Lists m p ∨ Attends m p) := by
  simp only [guests, List.mem_append, List.mem_filterMap, List.mem_eraseDups, List.mem_filter,
    mem_attendingTeam, Bool.not_eq_true', List.contains_eq_mem, decide_eq_false_iff_not, Lists]
  constructor
  · rintro (⟨id, hid, hp⟩ | ⟨⟨hp, hattends⟩, -⟩)
    · exact ⟨mem_of_participant? hp, .inl (id_of_participant? hp ▸ hid)⟩
    · exact ⟨hp, .inr hattends⟩
  · rintro ⟨hp, hin⟩
    by_cases hlisted : p.id ∈ listedIds m
    · exact .inl ⟨p.id, hlisted, participant?_of_mem hids hp⟩
    · exact .inr ⟨⟨hp, hin.resolve_left hlisted⟩, hlisted⟩

theorem perm_filter_guests (hids : (v.participants.map (·.id)).Nodup) (m : Meeting)
    (kind : Participant → Bool) :
    ((v.guests m).filter kind).Perm
      (v.participants.filter fun p => kind p && decide (Lists m p ∨ Attends m p)) := by
  rw [List.perm_ext_iff_of_nodup ((nodup_ids_guests hids m).of_map.filter _)
    (hids.of_map.filter _)]
  intro p
  simp only [List.mem_filter, mem_guests_iff hids, Bool.and_eq_true, decide_eq_true_eq]
  tauto

section Reports

open Reporting (Gives)

variable (v : Visit) (m : Meeting)

def listed : List Participant := m.individuals.filterMap fun i => v.participant? i.id

/-- The errors that the individuals of a meeting who are not on the roster give rise to. -/
def missingTexts : List String :=
  (m.individuals.filter fun i => (v.participant? i.id).isNone).map (missing m)

def missingReports : List Message := (v.missingTexts m).map (⟨.error, ·⟩)

theorem missingReports_eq : v.missingReports m =
    (m.individuals.filter fun i => (v.participant? i.id).isNone).map fun i =>
      ⟨.error, missing m i⟩ := by
  rw [missingReports, missingTexts, List.map_map]
  rfl

theorem errors_missingReports : textsOf .error (v.missingReports m) = v.missingTexts m := by
  rw [textsOf, missingReports, List.filter_eq_self.mpr, List.map_map]
  · exact List.map_id _
  · exact List.forall_mem_map.mpr fun _ _ => rfl

theorem representatives_gives :
    Gives (v.representatives m) (· = v.listed m) (v.missingReports m) := by
  intro messages found after h
  rw [representatives, enlisted_outcome, ← missingReports_eq] at h
  cases h
  exact ⟨rfl, rfl⟩

theorem attendees_gives (hids : (v.participants.map (·.id)).Nodup) :
    Gives (v.attendees m) (· = v.guests m) (v.missingReports m) := by
  intro messages found after h
  rw [attendees_outcome hids, ← missingReports_eq] at h
  cases h
  exact ⟨rfl, rfl⟩

end Reports

end SiteVisit.Visit
